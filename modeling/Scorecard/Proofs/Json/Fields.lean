import Scorecard.Proofs.Json.Reading

/-!
Fields that are left out. A reader that asks for a field of an object gets the same whether the field is
missing or is written with its default, so of an object that writes defaults any may be left out.
-/
namespace Scorecard.Json

/-- The default of counts. -/
def Document.zero : Document := .number (.integer 0 (by decide))

namespace Fields

/-- The fields but those of some names. -/
def without (names : List String) (fields : Fields) : Fields := fields.filter fun m => m.1 ∉ names

/-- Each of the names is given once, with its default. -/
def WritesDefaults (defaults : Fields) (names : List String) (fields : Fields) : Prop :=
  ∀ name ∈ names, ∃ d, defaults.lookup name = some d ∧ fields.filter (·.1 == name) = [(name, d)]

section

variable {names : List String} {fields defaults : Fields}

theorem lookup_eq_head?_filter (fields : Fields) (name : String) :
    fields.lookup name = (fields.filter (·.1 == name)).head?.map (·.2) := by
  induction fields with
  | nil => rfl
  | cons m fields ih =>
      obtain ⟨k, d⟩ := m
      rw [Table.lookup_cons_eq_ite, List.filter_cons]
      by_cases h : name = k
      · rw [if_pos h, if_pos (beq_iff_eq.mpr h.symm)]
        rfl
      · rw [if_neg h, if_neg fun heq => h (beq_iff_eq.mp heq).symm, ih]

theorem filter_without_of_mem {name : String} (h : name ∈ names) :
    (without names fields).filter (·.1 == name) = [] := by
  rw [without, List.filter_filter, List.filter_eq_nil_iff]
  intro m _ hm
  simp only [Bool.and_eq_true, beq_iff_eq, decide_eq_true_eq] at hm
  exact hm.2 (hm.1 ▸ h)

theorem filter_without_of_not_mem {name : String} (h : name ∉ names) :
    (without names fields).filter (·.1 == name) = fields.filter (·.1 == name) := by
  rw [without, List.filter_filter]
  refine List.filter_congr fun m _ => ?_
  by_cases hm : m.1 = name
  · simp [hm, h]
  · simp [hm]

theorem lookup_without_of_not_mem {name : String} (h : name ∉ names) :
    (without names fields).lookup name = fields.lookup name := by
  rw [lookup_eq_head?_filter, lookup_eq_head?_filter, filter_without_of_not_mem h]

/-- A name that is left out is missing, and had its default. -/
theorem WritesDefaults.lookup (h : WritesDefaults defaults names fields) {name : String} (hname : name ∈ names) :
    (without names fields).lookup name = none ∧ ∃ d, defaults.lookup name = some d ∧ fields.lookup name = some d := by
  obtain ⟨d, hdefault, hfilter⟩ := h name hname
  refine ⟨?_, d, hdefault, ?_⟩
  · rw [lookup_eq_head?_filter, filter_without_of_mem hname]
    rfl
  · rw [lookup_eq_head?_filter, hfilter]
    rfl

theorem WritesDefaults.occursOnce (h : WritesDefaults defaults names fields) (name : String) :
    Json.occursOnce (without names fields) name = Json.occursOnce fields name := by
  unfold Json.occursOnce
  by_cases hname : name ∈ names
  · obtain ⟨d, -, hfilter⟩ := h name hname
    rw [filter_without_of_mem hname, hfilter]
    rfl
  · rw [filter_without_of_not_mem hname]

variable {α : Type} {read : Document → Option α} {name : String}

/-- A record is read the same if its fields are. -/
theorem WritesDefaults.bind_fields? (h : WritesDefaults defaults names fields) (own : List String)
    (least : Nat) {build : Fields → Option α} (hbuild : build (without names fields) = build fields) :
    ((Document.object (without names fields)).fields? own least).bind build =
      ((Document.object fields).fields? own least).bind build := by
  have hall : own.all (Json.occursOnce (without names fields)) = own.all (Json.occursOnce fields) :=
    List.all_congr rfl h.occursOnce
  rw [Document.fields?, Document.fields?, hall]
  split
  · exact hbuild
  · rfl

theorem WritesDefaults.required (h : WritesDefaults defaults names fields) (hdefault : defaults.lookup name = none) :
    (without names fields).required name read = fields.required name read := by
  have hname : name ∉ names := by
    intro hname
    obtain ⟨d, hsome, -⟩ := h name hname
    rw [hdefault] at hsome
    cases hsome
  rw [Fields.required, Fields.required, lookup_without_of_not_mem hname]

theorem WritesDefaults.optional (h : WritesDefaults defaults names fields)
    (hdefault : defaults.lookup name = some .null) :
    (without names fields).optional name read = fields.optional name read := by
  rw [Fields.optional, Fields.optional]
  by_cases hname : name ∈ names
  · obtain ⟨hmissing, d, hd, hwritten⟩ := h.lookup hname
    rw [hdefault] at hd
    rw [hmissing, hwritten, ← Option.some.inj hd]
    rfl
  · rw [lookup_without_of_not_mem hname]

theorem WritesDefaults.withDefault (h : WritesDefaults defaults names fields) {default : α}
    (hdefault : (defaults.lookup name).bind read = some default) :
    (without names fields).withDefault name default read = fields.withDefault name default read := by
  rw [Fields.withDefault, Fields.withDefault]
  by_cases hname : name ∈ names
  · obtain ⟨hmissing, d, hd, hwritten⟩ := h.lookup hname
    rw [hd, Option.bind_some] at hdefault
    rw [hmissing, hwritten]
    exact hdefault.symm
  · rw [lookup_without_of_not_mem hname]

end

end Fields

end Scorecard.Json
