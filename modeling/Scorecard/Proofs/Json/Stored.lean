import Scorecard.Proofs.Json.Parsing
import Scorecard.Proofs.Timestamp.Text
import Scorecard.Proofs.Uuid
import Scorecard.Supply

/-!
Values as they are stored. What is stored is written as a value that is not nested too deep and has only
numbers that are read as themselves, and the reader takes it back. Strings, integers and identifiers always
are; times are if a text can tell them, and doubles if they are reproduced; options, lists and tables are if
what is in them is.
-/
namespace Scorecard.Json

/-- The double is a number, and the reader makes it of the text that the writer makes of it. -/
def Reproduced (x : Float) : Prop := x.isFinite = true ∧ parse? (ofFloat x).compact = some (ofFloat x).toDocument

/-- The number that is read from the text of the double is the double. -/
def reproduces (x : Float) : Bool :=
  match parse? (ofFloat x).compact with
  | some (.number (.float y _)) => decide (x = y)
  | _ => false

theorem reproduced_iff {x : Float} : Reproduced x ↔ x.isFinite = true ∧ reproduces x = true := by
  unfold Reproduced reproduces
  refine and_congr_right fun h => ?_
  rw [ofFloat, dif_pos h]
  constructor
  · intro hread
    rw [hread]
    exact decide_eq_true rfl
  · intro hread
    split at hread
    · rename_i y hy heq
      obtain rfl := of_decide_eq_true hread
      exact heq
    · cases hread

instance (x : Float) : Decidable (Reproduced x) := decidable_of_iff _ reproduced_iff.symm

/-- What is written for `a` takes no more than `height` levels and is taken back. -/
structure Stored {α : Type} (height : Nat) (write : α → Json) (read : Document → Option α) (a : α) : Prop where
  legible : Legible height (write a)
  readsBack : ReadsBack write read a

/-- A field that holds what is stored gives it. -/
theorem Stored.required {α : Type} {height : Nat} {write : α → Json} {read : Document → Option α} {a : α}
    (h : Stored height write read a) {fields : Fields} {name : String}
    (hfield : fields.lookup name = some (write a).toDocument) : fields.required name read = some a := by
  rw [Fields.required, hfield]
  exact h.readsBack

section

variable (height : Nat)

theorem stored_string (s : String) : Stored height .string (·.string?) s := ⟨.string s, readsBack_string s⟩

theorem stored_bool (b : Bool) : Stored height .bool (·.bool?) b := ⟨.bool b, readsBack_bool b⟩

theorem stored_uint32 (n : UInt32) : Stored height ofUInt32 (·.uint32?) n :=
  ⟨.number (reproduced_integer _), readsBack_uint32 n⟩

theorem stored_uint64 (n : UInt64) : Stored height ofUInt64 (·.uint64?) n :=
  ⟨.number (reproduced_integer _), readsBack_uint64 n⟩

theorem stored_float {x : Float} (h : Reproduced x) : Stored height ofFloat (·.float?) x := by
  refine ⟨?_, readsBack_float h.1⟩
  have hread := h.2
  rw [ofFloat, dif_pos h.1] at hread ⊢
  exact .number hread

theorem stored_uuid (u : Uuid) : Stored height ofUuid (·.uuid?) u := ⟨.string u.text, Uuid.ofString?_text u⟩

theorem stored_timestamp {t : Timestamp} (h : t.Spelled) : Stored height ofTimestamp (·.timestamp?) t :=
  ⟨.string t.text, Timestamp.ofString?_text_of_spelled h⟩

/-- The word of an enumeration, if the reader knows it. -/
theorem stored_word {α : Type} {word : α → String} {ofWord? : String → Option α} {a : α}
    (h : ofWord? (word a) = some a) : Stored height (fun a => .string (word a)) (fun d => d.word?.bind ofWord?) a :=
  ⟨.string (word a), h⟩

end

section

variable {α : Type} {height : Nat} {write : α → Json} {read : Document → Option α}

theorem stored_option {o : Option α} (hnull : read .null = none) (h : ∀ a ∈ o, Stored height write read a) :
    Stored height (ofOption write) (·.option? read) o := by
  refine ⟨?_, readsBack_option hnull fun a ha => (h a ha).readsBack⟩
  cases o with
  | none => exact .null
  | some a => exact (h a rfl).legible

theorem legible_ofList {l : List α} (h : ∀ a ∈ l, Legible height (write a)) : Legible (height + 1) (ofList write l) :=
  .array (List.forall_mem_map.mpr h)

theorem stored_list {l : List α} (h : ∀ a ∈ l, Stored height write read a) :
    Stored (height + 1) (ofList write) (·.list? read) l :=
  ⟨legible_ofList fun a ha => (h a ha).legible, readsBack_list fun a ha => (h a ha).readsBack⟩

theorem stored_table {t : Table α} (h : ∀ e ∈ t.entries, Stored height write read e.2) :
    Stored (height + 1) (ofTable write) (·.table? read) t :=
  ⟨.object (List.forall_mem_map.mpr fun e he => (h e he).legible), readsBack_table fun e he => (h e he).readsBack⟩

/-- Items that are read with supplies of their own, which they have no need of. -/
theorem stored_items {read : Supply → Document → Option α} {l : List α}
    (h : ∀ a ∈ l, ∀ supply, Stored height write (read supply) a) (supply : Supply) :
    Stored (height + 1) (ofList write) (supply.list? read) l := by
  refine ⟨legible_ofList fun a ha => (h a ha supply).legible, ?_⟩
  have hitems (index : Nat) : supply.readItems read index (l.map fun a => (write a).toDocument) = some l := by
    induction l generalizing index with
    | nil => rfl
    | cons a l ih =>
        obtain ⟨ha, hl⟩ := List.forall_mem_cons.mp h
        have hread : read (supply.item index) (write a).toDocument = some a := (ha _).readsBack
        rw [List.map_cons, Supply.readItems, hread, Option.bind_eq_bind, Option.bind_some, ih hl]
        rfl
  rw [ReadsBack, toDocument_ofList]
  exact hitems 0

end

/-! ### Values that are written alike -/

theorem ofTimestamp_spelled (t : Timestamp) : ofTimestamp t.spelled = ofTimestamp t :=
  congrArg Json.string t.text_spelled

section

variable {α : Type} {write : α → Json} {change : α → α}

theorem ofOption_map (h : ∀ a, write (change a) = write a) (o : Option α) :
    ofOption write (o.map change) = ofOption write o := by
  cases o with
  | none => rfl
  | some a => exact h a

theorem ofList_map (h : ∀ a, write (change a) = write a) (l : List α) : ofList write (l.map change) = ofList write l := by
  rw [ofList, ofList, List.map_map]
  exact congrArg Json.array (List.map_congr_left fun a _ => h a)

theorem map_eq_self_iff {l : List α} : l.map change = l ↔ ∀ a ∈ l, change a = a := by
  have hid := List.map_inj_left (l := l) (f := change) (g := id)
  rwa [List.map_id] at hid

end

end Scorecard.Json
