import Scorecard.Formula.Evaluate
import Scorecard.Proofs.Table

/-!
When formulas can be evaluated. A formula looks up its own metrics and no others, so a table that has a
finite value for each of them is all that it needs, if it has metrics at all.
-/
namespace Scorecard.Formula

/-- The table has a finite value for the metric. -/
def Supplies (values : Table Float) (metric : String) : Prop :=
  ∃ x, values.get? metric = some x ∧ x.isFinite = true

instance (values : Table Float) (metric : String) : Decidable (Supplies values metric) :=
  decidable_of_iff ((values.get? metric).any Float.isFinite = true) (by simp [Supplies, Option.any_eq_true])

variable {values : Table Float}

theorem value?_of_supplies {metric : String} (h : Supplies values metric) :
    ∃ x, value? values metric = .ok (some x) := by
  obtain ⟨x, hx, hfinite⟩ := h
  refine ⟨x, ?_⟩
  rw [value?, hx]
  exact if_pos hfinite

theorem requiredValue_of_supplies {metric : String} (h : Supplies values metric) :
    ∃ x, requiredValue values metric = .ok x := by
  obtain ⟨x, hx⟩ := value?_of_supplies h
  exact ⟨x, by rw [requiredValue, hx]⟩

/-- Every metric of the list has its value, however often it is listed. -/
theorem collect_of_supplies {metrics : List String} (h : ∀ metric ∈ metrics, Supplies values metric) :
    ∃ xs, collect values metrics = .ok xs ∧ xs.length = metrics.length := by
  induction metrics with
  | nil => exact ⟨[], rfl, rfl⟩
  | cons metric metrics ih =>
      obtain ⟨hmetric, hmetrics⟩ := List.forall_mem_cons.mp h
      obtain ⟨x, hx⟩ := value?_of_supplies hmetric
      obtain ⟨xs, hxs, hlength⟩ := ih hmetrics
      refine ⟨x :: xs, ?_, by rw [List.length_cons, List.length_cons, hlength]⟩
      rw [collect, hx, hxs]
      rfl

theorem presentValues_of_supplies {metrics : List String} (hne : metrics ≠ [])
    (h : ∀ metric ∈ metrics, Supplies values metric) : ∃ xs, presentValues values metrics = .ok xs := by
  obtain ⟨xs, hxs, hlength⟩ := collect_of_supplies h
  have hsome : xs.isEmpty = false := by
    rw [List.isEmpty_eq_false_iff]
    rintro rfl
    exact hne (List.length_eq_zero_iff.mp hlength.symm)
  refine ⟨xs, ?_⟩
  rw [presentValues, hxs]
  show (if xs.isEmpty then .error (EvaluationError.insufficient metrics) else .ok xs) = Except.ok xs
  rw [hsome]
  rfl

theorem weigh_of_supplies {weights : List (String × Float)} (h : ∀ entry ∈ weights, Supplies values entry.1)
    (total : Float) : ∃ score, weigh values total weights = .ok score := by
  induction weights generalizing total with
  | nil => exact ⟨total, rfl⟩
  | cons entry weights ih =>
      obtain ⟨metric, weight⟩ := entry
      obtain ⟨hmetric, hweights⟩ := List.forall_mem_cons.mp h
      obtain ⟨x, hx⟩ := requiredValue_of_supplies hmetric
      obtain ⟨score, hscore⟩ := ih hweights (total + x * weight)
      refine ⟨score, ?_⟩
      rw [weigh, hx]
      exact hscore

theorem isEmpty_of_supplies {metric : String} (h : Supplies values metric) : values.isEmpty = false := by
  obtain ⟨x, hx, -⟩ := h
  have hmem := (values.mem_entries_iff metric x).mpr hx
  rw [Table.isEmpty, List.isEmpty_eq_false_iff]
  intro hnil
  rw [hnil] at hmem
  cases hmem

/-- Formulas of the kinds that the expression language has read at least one metric. -/
theorem exists_metric_of_hasExpression {f : Formula} (h : f.hasExpression = true) :
    ∃ name, f.metrics.contains name = true := by
  cases f with
  | average names | least names | greatest names =>
      rw [hasExpression, Bool.not_eq_true', List.isEmpty_eq_false_iff_exists_mem] at h
      obtain ⟨name, hname⟩ := h
      exact ⟨name, NameSet.contains_ofList.mpr hname⟩
  | weightedSum weights =>
      rw [hasExpression, Table.isEmpty, Bool.not_eq_true', List.isEmpty_eq_false_iff_exists_mem] at h
      obtain ⟨entry, hentry⟩ := h
      exact ⟨entry.1, NameSet.contains_ofList.mpr (List.mem_map_of_mem hentry)⟩
  | threshold name => exact ⟨name, NameSet.contains_ofList.mpr (List.mem_singleton.mpr rfl)⟩

/-- A formula has a score on every table that supplies its metrics. -/
theorem evaluate_of_supplies {f : Formula} (hsome : ∃ name, f.metrics.contains name = true)
    (h : ∀ name, f.metrics.contains name = true → Supplies values name) : ∃ score, f.evaluate values = .ok score := by
  obtain ⟨first, hfirst⟩ := hsome
  have hnonempty := isEmpty_of_supplies (h first hfirst)
  unfold evaluate
  rw [hnonempty, if_neg Bool.false_ne_true]
  cases f with
  | average names | least names | greatest names =>
      have hne : names ≠ [] := List.ne_nil_of_mem (NameSet.contains_ofList.mp hfirst)
      obtain ⟨xs, hxs⟩ := presentValues_of_supplies hne fun name hname => h name (NameSet.contains_ofList.mpr hname)
      dsimp only
      rw [hxs]
      exact ⟨_, rfl⟩
  | weightedSum weights =>
      have hweights : weights.isEmpty = false := by
        obtain ⟨entry, hentry, -⟩ := List.mem_map.mp (NameSet.contains_ofList.mp hfirst)
        rw [Table.isEmpty, List.isEmpty_eq_false_iff]
        exact List.ne_nil_of_mem hentry
      have hsupplies : ∀ entry ∈ weights.entries, Supplies values entry.1 := by
        intro entry hentry
        exact h entry.1 (NameSet.contains_ofList.mpr (List.mem_map_of_mem hentry))
      obtain ⟨score, hscore⟩ := weigh_of_supplies hsupplies 0
      dsimp only
      rw [hweights, if_neg Bool.false_ne_true, hscore]
      exact ⟨score, rfl⟩
  | threshold name bound comparison =>
      obtain ⟨x, hx⟩ := requiredValue_of_supplies (h name (NameSet.contains_ofList.mpr (List.mem_singleton.mpr rfl)))
      dsimp only
      rw [hx]
      exact ⟨_, rfl⟩

end Scorecard.Formula
