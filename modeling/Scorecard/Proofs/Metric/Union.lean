import Scorecard.Proofs.Metric.Name
import Scorecard.Proofs.Metric.Registration

/-!
Registering batch after batch. A registry ends up with what it had and with the normal forms of all names given that
are not blank, whichever batches they came in and in whichever order, and each batch is answered with the number of
names by which the registry has grown.
-/
namespace Scorecard.Metric.Registry

/-- Registers batch after batch, and keeps the answer to each. -/
def registerAll (r : Registry) : List (List String) → Registry × List Nat
  | [] => (r, [])
  | names :: batches =>
    let (r, added) := r.register names
    let (r, counts) := r.registerAll batches
    (r, added :: counts)

/-! ### One batch -/

theorem size_add (r : Registry) (name : String) : (r.add name).1.names.size = r.names.size + (r.add name).2 := by
  unfold add
  dsimp only
  split
  · rfl
  · next h => exact Table.size_insert (eq_false_of_ne_true (not_or.mp h).2) ()

theorem register_cons (r : Registry) (name : String) (names : List String) :
    r.register (name :: names) =
      (((r.add name).1.register names).1, (r.add name).2 + ((r.add name).1.register names).2) := by
  rw [register]

/-- A batch is answered with the growth of the registry. -/
theorem size_register (r : Registry) (names : List String) :
    (r.register names).1.names.size = r.names.size + (r.register names).2 := by
  induction names generalizing r with
  | nil => rfl
  | cons name names ih => rw [register_cons, ih, size_add, Nat.add_assoc]

/-! ### Batch after batch -/

theorem registerAll_cons (r : Registry) (names : List String) (batches : List (List String)) :
    r.registerAll (names :: batches) =
      (((r.register names).1.registerAll batches).1,
        (r.register names).2 :: ((r.register names).1.registerAll batches).2) := rfl

theorem registerAll_append (r : Registry) (batches batches' : List (List String)) :
    r.registerAll (batches ++ batches') =
      (((r.registerAll batches).1.registerAll batches').1,
        (r.registerAll batches).2 ++ ((r.registerAll batches).1.registerAll batches').2) := by
  induction batches generalizing r with
  | nil => rfl
  | cons names batches ih => rw [List.cons_append, registerAll_cons, ih, registerAll_cons, List.cons_append]

theorem length_registerAll (r : Registry) (batches : List (List String)) :
    (r.registerAll batches).2.length = batches.length := by
  induction batches generalizing r with
  | nil => rfl
  | cons names batches ih => rw [registerAll_cons, List.length_cons, ih, List.length_cons]

/-- What is added by names: their normal forms, but for those of blank names. -/
theorem isNormalForm_iff {names : List String} {k : String} :
    (k ≠ "" ∧ ∃ name ∈ names, normalize name = k) ↔
      ∃ name ∈ names, Text.isBlankText name = false ∧ normalize name = k := by
  constructor
  · rintro ⟨hk, name, hname, rfl⟩
    exact ⟨name, hname, eq_false_of_ne_true (mt normalize_eq_empty_iff.mpr hk), rfl⟩
  · rintro ⟨name, hname, hblank, rfl⟩
    exact ⟨mt normalize_eq_empty_iff.mp (ne_true_of_eq_false hblank), name, hname, rfl⟩

/-- A registry has what it had, and the normal forms of the names in all batches. -/
theorem contains_registerAll (r : Registry) (batches : List (List String)) (k : String) :
    (r.registerAll batches).1.names.contains k = true ↔
      r.names.contains k = true ∨ ∃ name ∈ batches.flatten, Text.isBlankText name = false ∧ normalize name = k := by
  induction batches generalizing r with
  | nil => simp [registerAll]
  | cons names batches ih =>
      have hbatch := contains_withNames r names k
      rw [isNormalForm_iff] at hbatch
      rw [registerAll_cons, ih]
      simp only [List.flatten_cons, List.mem_append, or_and_right, exists_or, ← or_assoc]
      exact or_congr_left hbatch

theorem size_registerAll (r : Registry) (batches : List (List String)) :
    (r.registerAll batches).1.names.size = r.names.size + (r.registerAll batches).2.sum := by
  induction batches generalizing r with
  | nil => rfl
  | cons names batches ih => rw [registerAll_cons, ih, size_register, List.sum_cons, Nat.add_assoc]

theorem ext_contains {r s : Registry} (h : ∀ k, r.names.contains k = true ↔ s.names.contains k = true) : r = s := by
  cases r
  cases s
  exact congrArg Registry.mk (NameSet.ext_contains h)

/-- The same names come to the same registry. -/
theorem registerAll_fst_congr (r : Registry) {batches batches' : List (List String)}
    (h : ∀ name, name ∈ batches.flatten ↔ name ∈ batches'.flatten) :
    (r.registerAll batches).1 = (r.registerAll batches').1 := by
  refine ext_contains fun k => ?_
  simp only [contains_registerAll, h]

/-- The same names are answered with the same numbers altogether: both are the growth of the registry. -/
theorem registerAll_sum_congr (r : Registry) {batches batches' : List (List String)}
    (h : ∀ name, name ∈ batches.flatten ↔ name ∈ batches'.flatten) :
    (r.registerAll batches).2.sum = (r.registerAll batches').2.sum := by
  have hsize := congrArg (·.names.size) (r.registerAll_fst_congr h)
  rw [size_registerAll, size_registerAll] at hsize
  exact Nat.add_left_cancel hsize

/-! ### The union -/

/-- The answer to a batch is the growth of the registry by it, in which no name is lost. -/
structure Grows (before after : Registry) (added : Nat) : Prop where
  size : after.names.size = before.names.size + added
  keeps : before ⊆ after

theorem grows_register (r : Registry) (names : List String) : r.Grows (r.register names).1 (r.register names).2 :=
  ⟨r.size_register names, r.subset_withNames names⟩

/-- What a registry is after batches of names, and what they were answered. -/
structure Unites (r : Registry) (batches : List (List String)) (after : Registry) (counts : List Nat) : Prop where
  contains_iff (k : String) : after.names.contains k = true ↔
    r.names.contains k = true ∨ ∃ name ∈ batches.flatten, Text.isBlankText name = false ∧ normalize name = k
  /-- Each batch is answered with the growth by it. -/
  grows {front : List (List String)} {names : List String} {back : List (List String)}
    (h : batches = front ++ names :: back) : ∃ added, counts[front.length]? = some added ∧
      (r.registerAll front).1.Grows (r.registerAll (front ++ [names])).1 added
  /-- No blank name is added. -/
  blank {k : String} (h : Text.isBlankText k = true) : after.names.contains k = r.names.contains k
  knows_iff (name : String) : after.knows name = true ↔ after.names.contains (normalize name) = true
  /-- A name that was given is known by all its spellings. -/
  knows {name : String} (h : name ∈ batches.flatten) (hblank : Text.isBlankText name = false) {spelling : String}
    (hspelling : SameCapitals name spelling) : after.knows spelling = true

theorem unites_registerAll (r : Registry) (batches : List (List String)) :
    r.Unites batches (r.registerAll batches).1 (r.registerAll batches).2 where
  contains_iff := r.contains_registerAll batches
  grows := by
    rintro front names back rfl
    rw [registerAll_append, registerAll_append]
    refine ⟨((r.registerAll front).1.register names).2, ?_, (r.registerAll front).1.grows_register names⟩
    rw [List.getElem?_append_right (length_registerAll r front).le, length_registerAll, Nat.sub_self]
    rfl
  blank := by
    intro k hk
    rw [Bool.eq_iff_iff, contains_registerAll]
    refine or_iff_left ?_
    rintro ⟨name, -, hname, rfl⟩
    rw [isBlankText_normalize, hname] at hk
    cases hk
  knows_iff := fun _ => Iff.rfl
  knows := by
    intro name hname hblank spelling hspelling
    rw [knows, contains_registerAll]
    exact .inr ⟨name, hname, hblank, hspelling.normalize_eq⟩

/-- Whatever names are registered in whichever batches, the registry is the union of what it was and of their normal
forms; and it and the sum of the answers are the same for every reordering and regrouping of the names. -/
theorem registerAll_unites (r : Registry) (batches : List (List String)) :
    r.Unites batches (r.registerAll batches).1 (r.registerAll batches).2 ∧
      ∀ batches' : List (List String), batches.flatten.Perm batches'.flatten →
        (r.registerAll batches').1 = (r.registerAll batches).1 ∧
          (r.registerAll batches').2.sum = (r.registerAll batches).2.sum := by
  refine ⟨r.unites_registerAll batches, fun batches' h => ?_⟩
  have hnames (name : String) : name ∈ batches'.flatten ↔ name ∈ batches.flatten := h.mem_iff.symm
  exact ⟨r.registerAll_fst_congr hnames, r.registerAll_sum_congr hnames⟩

/-- One street in three spellings, a blank and a standard metric, in three batches and in one. -/
theorem registerAll_unites_of_street :
    let batches := [["straße", "\u00A0"], ["STRASSE", "bleu"], ["Strasse "]]
    let batches' := [["bleu", "Strasse ", "STRASSE", "straße", "\u00A0"]]
    let after := (standard.registerAll batches).1
    batches.flatten.Perm batches'.flatten ∧ (standard.registerAll batches).2 = [1, 0, 0] ∧
      standard.Unites batches after [1, 0, 0] ∧ after.knows "\tstrasse" = true ∧
        (standard.registerAll batches').1 = after ∧ (standard.registerAll batches').2.sum = 1 := by
  intro batches batches' after
  have hperm : batches.flatten.Perm batches'.flatten := by decide
  have hcounts : (standard.registerAll batches).2 = [1, 0, 0] := by decide +kernel
  obtain ⟨hunites, hregrouped⟩ := registerAll_unites standard batches
  rw [hcounts] at hunites hregrouped
  have hspelling : SameCapitals "straße" "\tstrasse" :=
    @SameCapitals.intro [] "straße".toList [] ['\t'] "strasse".toList [] (List.forall_mem_nil _) (List.forall_mem_nil _)
      (List.forall_mem_singleton.mpr (by decide)) (List.forall_mem_nil _) (by decide)
  have hgiven : "straße" ∈ batches.flatten := by decide
  obtain ⟨hafter, hsum⟩ := hregrouped batches' hperm
  exact ⟨hperm, hcounts, hunites, hunites.knows hgiven (by decide) hspelling, hafter, hsum⟩

end Scorecard.Metric.Registry
