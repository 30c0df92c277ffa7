import Mathlib
import Scorecard.Table

/-!
What tables made of lists hold. Of entries with one name the last one counts, so where the names are
distinct a table holds what the list does, in whichever order the list has it.
-/
namespace Scorecard

variable {α : Type}

namespace Table

theorem get?_foldl_insert (t : Table α) (l : List (String × α)) (k : String) :
    (l.foldl (fun t e => t.insert e.1 e.2) t).get? k = (l.reverse.lookup k).or (t.get? k) := by
  induction l generalizing t with
  | nil => simp
  | cons e l ih =>
      obtain ⟨k', v⟩ := e
      rw [List.foldl_cons, ih, get?_insert, List.reverse_cons, List.lookup_append, Option.or_assoc,
        lookup_cons_eq_ite, List.lookup_nil]
      split <;> rfl

/-- A table of a list holds the last entry of each name. -/
theorem get?_ofList (l : List (String × α)) (k : String) : (ofList l).get? k = l.reverse.lookup k := by
  rw [ofList, get?_foldl_insert, get?_empty, Option.or_none]

/-- A list whose entries of one name agree loses nothing as a table. -/
theorem get?_ofList_eq_some_iff_of_agree {l : List (String × α)} (h : ∀ e ∈ l, ∀ e' ∈ l, e.1 = e'.1 → e.2 = e'.2)
    {k : String} {v : α} : (ofList l).get? k = some v ↔ (k, v) ∈ l := by
  have hmem {v : α} (hlookup : l.reverse.lookup k = some v) : (k, v) ∈ l := by
    rw [List.lookup_eq_some_iff] at hlookup
    obtain ⟨before, after, hreverse, -⟩ := hlookup
    exact List.mem_reverse.mp (hreverse ▸ List.mem_append_right _ List.mem_cons_self)
  rw [get?_ofList]
  refine ⟨hmem, fun hentry => ?_⟩
  cases hlookup : l.reverse.lookup k with
  | none =>
      rw [List.lookup_eq_none_iff] at hlookup
      exact absurd rfl (bne_iff_ne.mp (hlookup (k, v) (List.mem_reverse.mpr hentry)))
  | some v' => exact congrArg some (h (k, v') (hmem hlookup) (k, v) hentry rfl)

theorem get?_ofList_eq_some_iff {l : List (String × α)} (h : (l.map (·.1)).Nodup) {k : String} {v : α} :
    (ofList l).get? k = some v ↔ (k, v) ∈ l :=
  get?_ofList_eq_some_iff_of_agree fun _ he _ he' hname => congrArg Prod.snd (List.inj_on_of_nodup_map h he he' hname)

/-- The names of a table stand in order, each once. -/
theorem pairwise_keys (t : Table α) : t.keys.Pairwise (· < ·) := List.pairwise_map.mpr t.ordered

theorem nodup_keys (t : Table α) : t.keys.Nodup := by
  refine t.pairwise_keys.imp ?_
  intro a b hlt heq
  exact String.lt_irrefl b (heq ▸ hlt)

/-- The entries of a table make the table again. -/
theorem ofList_entries (t : Table α) : ofList t.entries = t := by
  refine ext_get? fun k => Option.ext fun v => ?_
  rw [get?_ofList_eq_some_iff t.nodup_keys, mem_entries_iff]

theorem contains_iff_mem_keys {t : Table α} {k : String} : t.contains k = true ↔ k ∈ t.keys := by
  rw [contains, Option.isSome_iff_exists, keys, List.mem_map]
  constructor
  · rintro ⟨v, hv⟩
    exact ⟨(k, v), (mem_entries_iff t k v).mpr hv, rfl⟩
  · rintro ⟨⟨k', v⟩, hmem, rfl⟩
    exact ⟨v, (mem_entries_iff t k' v).mp hmem⟩

theorem contains_ofList {l : List (String × α)} {k : String} :
    (ofList l).contains k = true ↔ k ∈ l.map (·.1) := by
  rw [contains, get?_ofList, ← Option.ne_none_iff_isSome, ne_eq, List.lookup_eq_none_iff, List.mem_map]
  constructor
  · intro h
    refine Classical.byContradiction fun hnone => h fun e he => ?_
    rw [List.mem_reverse] at he
    exact bne_iff_ne.mpr fun heq => hnone ⟨e, he, heq.symm⟩
  · rintro ⟨e, he, rfl⟩ hnone
    have := hnone e (List.mem_reverse.mpr he)
    simp at this

/-- A name that is new to a list of entries makes it longer by one. -/
theorem length_insertEntry {k : String} {l : List (String × α)} (h : l.lookup k = none) (v : α) :
    (insertEntry k v l).length = l.length + 1 := by
  induction l with
  | nil => rfl
  | cons e l ih =>
      rw [lookup_cons_eq_ite] at h
      rw [insertEntry]
      split
      · rfl
      · by_cases heq : k = e.1
        · rw [if_pos heq] at h
          cases h
        · rw [if_neg heq] at h ⊢
          rw [List.length_cons, List.length_cons, ih h]

theorem size_insert {t : Table α} {k : String} (h : t.contains k = false) (v : α) : (t.insert k v).size = t.size + 1 :=
  length_insertEntry (Option.isNone_iff_eq_none.mp (Option.isSome_eq_false_iff.mp h)) v

end Table

namespace NameSet

theorem ofList_eq (names : List String) : ofList names = Table.ofList (names.map fun name => (name, ())) := by
  rw [ofList, insertAll, Table.ofList, List.foldl_map]
  rfl

@[simp] theorem contains_ofList {names : List String} {k : String} :
    (ofList names).contains k = true ↔ k ∈ names := by
  rw [ofList_eq, Table.contains_ofList, List.map_map]
  simp

theorem get?_eq_some_iff {s : NameSet} {k : String} {v : Unit} : s.get? k = some v ↔ s.contains k = true := by
  rw [Table.contains, Option.isSome_iff_exists]
  exact ⟨fun h => ⟨v, h⟩, fun ⟨_, h⟩ => h⟩

/-- A set of names is determined by its members. -/
theorem ext_contains {s t : NameSet} (h : ∀ k, s.contains k = true ↔ t.contains k = true) : s = t := by
  refine Table.ext_get? fun k => Option.ext fun v => ?_
  rw [get?_eq_some_iff, get?_eq_some_iff, h]

theorem ofList_congr {names names' : List String} (h : ∀ k, k ∈ names ↔ k ∈ names') : ofList names = ofList names' := by
  refine ext_contains fun k => ?_
  rw [contains_ofList, contains_ofList, h]

end NameSet

end Scorecard
