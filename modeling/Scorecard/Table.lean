/-!
Finite maps from names to values, and finite sets of names. A table is the list of its entries in
strictly increasing order of the names, so a table is determined by what it holds and its order is
the order in which reports list it. Every operation is described by what it does to `get?`, and two
tables with the same `get?` are equal.
-/
namespace Scorecard

/-- Entries in strictly increasing order of their names. -/
def Ordered {α : Type} (l : List (String × α)) : Prop := l.Pairwise fun a b => a.1 < b.1

/-- Puts an entry in its place, in the stead of an entry of the same name. -/
def insertEntry {α : Type} (k : String) (v : α) : List (String × α) → List (String × α)
  | [] => [(k, v)]
  | (k', v') :: l =>
    if k < k' then (k, v) :: (k', v') :: l
    else if k = k' then (k, v) :: l
    else (k', v') :: insertEntry k v l

theorem mem_insertEntry {α : Type} {k : String} {v : α} {e : String × α} {l : List (String × α)}
    (h : e ∈ insertEntry k v l) : e = (k, v) ∨ e ∈ l := by
  induction l with
  | nil => simpa [insertEntry] using h
  | cons head l ih =>
    rw [insertEntry] at h
    split at h
    · simpa using h
    · split at h
      · rcases List.mem_cons.mp h with h | h
        · exact .inl h
        · exact .inr (List.mem_cons_of_mem _ h)
      · rcases List.mem_cons.mp h with h | h
        · exact .inr (h ▸ List.mem_cons_self ..)
        · exact (ih h).imp_right (List.mem_cons_of_mem _)

theorem lt_of_not_lt_of_ne {a b : String} (h : ¬a < b) (h' : a ≠ b) : b < a :=
  String.not_le.mp fun hle => h' (String.le_antisymm hle (String.not_lt.mp h))

theorem Ordered.insertEntry {α : Type} {l : List (String × α)} (h : Ordered l) (k : String) (v : α) :
    Ordered (insertEntry k v l) := by
  induction l with
  | nil => simp [Scorecard.insertEntry, Ordered]
  | cons head l ih =>
    obtain ⟨hhead, htail⟩ := List.pairwise_cons.mp h
    rw [Scorecard.insertEntry]
    split
    · rename_i hlt
      refine List.pairwise_cons.mpr ⟨fun e he => ?_, h⟩
      rcases List.mem_cons.mp he with rfl | he
      · exact hlt
      · exact String.lt_trans hlt (hhead e he)
    · split
      · rename_i heq
        exact List.pairwise_cons.mpr ⟨fun e he => heq ▸ hhead e he, htail⟩
      · rename_i hlt hne
        refine List.pairwise_cons.mpr ⟨fun e he => ?_, ih htail⟩
        rcases mem_insertEntry he with rfl | he
        · exact lt_of_not_lt_of_ne hlt hne
        · exact hhead e he

structure Table (α : Type) where
  entries : List (String × α)
  ordered : Ordered entries
deriving DecidableEq

namespace Table

variable {α : Type}

def empty : Table α := ⟨[], List.Pairwise.nil⟩

instance : EmptyCollection (Table α) := ⟨empty⟩

instance : Inhabited (Table α) := ⟨∅⟩

instance [BEq α] : BEq (Table α) := ⟨fun s t => s.entries == t.entries⟩

def isEmpty (t : Table α) : Bool := t.entries.isEmpty

def size (t : Table α) : Nat := t.entries.length

def get? (t : Table α) (k : String) : Option α := t.entries.lookup k

def contains (t : Table α) (k : String) : Bool := (t.get? k).isSome

def insert (t : Table α) (k : String) (v : α) : Table α :=
  ⟨insertEntry k v t.entries, t.ordered.insertEntry k v⟩

/-- The table of the entries; of two entries with one name the later counts. -/
def ofList (l : List (String × α)) : Table α := l.foldl (fun t e => t.insert e.1 e.2) ∅

/-- The table with `f` applied to every value. -/
def map {β : Type} (f : α → β) (t : Table α) : Table β :=
  ⟨t.entries.map fun e => (e.1, f e.2), by
    rw [Ordered, List.pairwise_map]
    exact t.ordered⟩

/-- The names in increasing order. -/
def keys (t : Table α) : List String := t.entries.map (·.1)

theorem lookup_cons_eq_ite (k k' : String) (v : α) (l : List (String × α)) :
    List.lookup k' ((k, v) :: l) = if k' = k then some v else l.lookup k' := by
  by_cases h : k' = k
  · simp [h]
  · have hb : (k' == k) = false := by simpa using h
    simp [List.lookup_cons, hb, h]

theorem lookup_insertEntry (k k' : String) (v : α) (l : List (String × α)) :
    (insertEntry k v l).lookup k' = if k' = k then some v else l.lookup k' := by
  induction l with
  | nil => simp [insertEntry, lookup_cons_eq_ite]
  | cons head l ih =>
    obtain ⟨k₀, v₀⟩ := head
    rw [insertEntry]
    split
    · rw [lookup_cons_eq_ite]
    · split
      · rename_i heq
        subst heq
        by_cases h : k' = k <;> simp [lookup_cons_eq_ite, h]
      · rename_i hne
        rw [lookup_cons_eq_ite, ih, lookup_cons_eq_ite]
        by_cases h : k' = k
        · subst h
          simp [hne]
        · simp [h]

@[simp] theorem get?_insert (t : Table α) (k k' : String) (v : α) :
    (t.insert k v).get? k' = if k' = k then some v else t.get? k' :=
  lookup_insertEntry k k' v t.entries

@[simp] theorem get?_empty (k : String) : (∅ : Table α).get? k = none := rfl

theorem lookup_map {β : Type} (f : α → β) (k : String) (l : List (String × α)) :
    List.lookup k (l.map fun e => (e.1, f e.2)) = (l.lookup k).map f := by
  induction l with
  | nil => rfl
  | cons head l ih =>
    rw [List.map_cons, lookup_cons_eq_ite, lookup_cons_eq_ite, ih]
    split <;> rfl

@[simp] theorem get?_map {β : Type} (f : α → β) (t : Table α) (k : String) :
    (t.map f).get? k = (t.get? k).map f :=
  lookup_map f k t.entries

theorem mem_entries_iff (t : Table α) (k : String) (v : α) : (k, v) ∈ t.entries ↔ t.get? k = some v := by
  obtain ⟨l, h⟩ := t
  simp only [get?]
  induction l with
  | nil => simp
  | cons head l ih =>
    obtain ⟨hhead, htail⟩ := List.pairwise_cons.mp h
    obtain ⟨k₀, v₀⟩ := head
    rw [List.mem_cons, ih htail, lookup_cons_eq_ite]
    by_cases heq : k = k₀
    · subst heq
      have hnone : l.lookup k = none := by
        rw [List.lookup_eq_none_iff]
        intro p hp
        have hlt : k < p.1 := hhead p hp
        simpa using fun heq : k = p.1 => String.lt_irrefl _ (heq ▸ hlt)
      simp [hnone, eq_comm]
    · simp [heq]

/-- A table is determined by what it holds. -/
theorem ext_get? {s t : Table α} (h : ∀ k, s.get? k = t.get? k) : s = t := by
  suffices hl : s.entries = t.entries by
    cases s; cases t; simp_all
  have hmem (e : String × α) : e ∈ s.entries ↔ e ∈ t.entries := by
    obtain ⟨k, v⟩ := e
    rw [mem_entries_iff, mem_entries_iff, h]
  have hs := s.ordered
  have ht := t.ordered
  revert hmem hs ht
  generalize s.entries = l₁
  generalize t.entries = l₂
  clear h s t
  intro hmem hs ht
  induction l₁ generalizing l₂ with
  | nil =>
    cases l₂ with
    | nil => rfl
    | cons b l₂ => exact absurd ((hmem b).mpr (List.mem_cons_self ..)) (List.not_mem_nil)
  | cons a l₁ ih =>
    cases l₂ with
    | nil => exact absurd ((hmem a).mp (List.mem_cons_self ..)) (List.not_mem_nil)
    | cons b l₂ =>
      obtain ⟨ha, hs'⟩ := List.pairwise_cons.mp hs
      obtain ⟨hb, ht'⟩ := List.pairwise_cons.mp ht
      have hab : a = b := by
        rcases List.mem_cons.mp ((hmem a).mp (List.mem_cons_self ..)) with h | h
        · exact h
        rcases List.mem_cons.mp ((hmem b).mpr (List.mem_cons_self ..)) with h' | h'
        · exact h'.symm
        · exact absurd (ha b h') (String.lt_asymm (hb a h))
      subst hab
      refine congrArg (a :: ·) (ih l₂ (fun e => ?_) hs' ht')
      have hne₁ : ∀ e ∈ l₁, e ≠ a := fun e he heq => String.lt_irrefl _ (heq ▸ ha e he)
      have hne₂ : ∀ e ∈ l₂, e ≠ a := fun e he heq => String.lt_irrefl _ (heq ▸ hb e he)
      constructor
      · intro he
        exact (List.mem_cons.mp ((hmem e).mp (List.mem_cons_of_mem _ he))).resolve_left (hne₁ e he)
      · intro he
        exact (List.mem_cons.mp ((hmem e).mpr (List.mem_cons_of_mem _ he))).resolve_left (hne₂ e he)

end Table

/-- A finite set of names. -/
abbrev NameSet := Table Unit

namespace NameSet

def insert (s : NameSet) (name : String) : NameSet := Table.insert s name ()

def insertAll (s : NameSet) (names : List String) : NameSet := names.foldl insert s

def ofList (names : List String) : NameSet := insertAll ∅ names

end NameSet

end Scorecard
