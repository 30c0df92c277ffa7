import Scorecard.Proofs.Expression.Printing
import Scorecard.Proofs.Metric.Registration

/-!
Formulas written and compiled again. What compiled once compiles to itself from its own text, in every
part. A formula of other origin comes back from its text if and only if the language spells it, which
is more than that it has an expression: its metrics must be identifiers and its constants finite.
-/
namespace Scorecard.Expression

/-! ### Equal formulas -/

theorem sameConstants_refl {l : List (String × Float)} (h : ∀ entry ∈ l, entry.2.isFinite = true) :
    Formula.sameConstants l l = true := by
  induction l with
  | nil => rfl
  | cons entry l ih =>
      obtain ⟨hentry, hl⟩ := List.forall_mem_cons.mp h
      rw [Formula.sameConstants, beq_self_eq_true, Decimal.beq_self_of_isFinite hentry, ih hl]
      rfl

/-- A formula with finite constants equals itself; with others it does not need to. -/
theorem equivalent_self {f : Formula} (h : ∀ x ∈ f.constants, x.isFinite = true) : f.equivalent f = true := by
  cases f with
  | average names | least names | greatest names => simp [Formula.equivalent]
  | weightedSum weights =>
      exact sameConstants_refl fun entry hentry => h _ (List.mem_map_of_mem hentry)
  | threshold name bound comparison =>
      have hbound := Decimal.beq_self_of_isFinite (h bound (List.mem_singleton.mpr rfl))
      simp [Formula.equivalent, hbound]

/-- Lists with the same constants have the same names, and numbers that are finite together. -/
theorem of_sameConstants {l l' : List (String × Float)} (h : Formula.sameConstants l l' = true) :
    l.map (·.1) = l'.map (·.1) ∧ ((∀ x ∈ l.map (·.2), x.isFinite = true) → ∀ x ∈ l'.map (·.2), x.isFinite = true) := by
  induction l generalizing l' with
  | nil =>
      cases l' with
      | nil => exact ⟨rfl, id⟩
      | cons entry' l' => cases h
  | cons entry l ih =>
      cases l' with
      | nil => cases h
      | cons entry' l' =>
          rw [Formula.sameConstants, Bool.and_eq_true, Bool.and_eq_true, beq_iff_eq] at h
          obtain ⟨⟨hname, hvalue⟩, hrest⟩ := h
          obtain ⟨hnames, hfinite⟩ := ih hrest
          refine ⟨by rw [List.map_cons, List.map_cons, hname, hnames], fun hl => ?_⟩
          obtain ⟨hentry, hl⟩ := List.forall_mem_cons.mp hl
          exact List.forall_mem_cons.mpr ⟨Decimal.isFinite_of_beq hentry hvalue, hfinite hl⟩

theorem hasExpression_weightedSum (weights : Table Float) :
    (Formula.weightedSum weights).hasExpression = !weights.keys.isEmpty := by
  rw [Formula.hasExpression, Table.isEmpty, Table.keys, List.isEmpty_map]

/-- What equals a formula that the language spells is spelled too. -/
theorem spelled_of_equivalent {f g : Formula} (hf : f.Spelled) (h : f.equivalent g = true) : g.Spelled := by
  cases f with
  | average names =>
      cases g with
      | average names' =>
          obtain rfl : names = names' := eq_of_beq h
          exact hf
      | _ => cases h
  | least names =>
      cases g with
      | least names' =>
          obtain rfl : names = names' := eq_of_beq h
          exact hf
      | _ => cases h
  | greatest names =>
      cases g with
      | greatest names' =>
          obtain rfl : names = names' := eq_of_beq h
          exact hf
      | _ => cases h
  | weightedSum weights =>
      cases g with
      | weightedSum weights' =>
          obtain ⟨hnames, hfinite⟩ := of_sameConstants h
          have hkeys : weights.keys = weights'.keys := hnames
          have hmetrics : (Formula.weightedSum weights).metrics = (Formula.weightedSum weights').metrics := by
            rw [Formula.metrics, Formula.metrics, hkeys]
          refine ⟨?_, hmetrics ▸ hf.names, hfinite hf.constants⟩
          rw [hasExpression_weightedSum, ← hkeys, ← hasExpression_weightedSum]
          exact hf.expression
      | _ => cases h
  | threshold name bound comparison =>
      cases g with
      | threshold name' bound' comparison' =>
          simp only [Formula.equivalent, Bool.and_eq_true, beq_iff_eq, decide_eq_true_eq] at h
          obtain ⟨⟨rfl, hbound⟩, rfl⟩ := h
          refine ⟨hf.expression, hf.names, fun x hx => ?_⟩
          rw [List.mem_singleton.mp hx]
          exact Decimal.isFinite_of_beq (hf.constants bound (List.mem_singleton.mpr rfl)) hbound
      | _ => cases h

/-! ### Texts compiled again -/

/-- The text of a compiled formula compiles to the same again, formula and references; and the formula
is one that equals itself. -/
theorem compile_text (known : Metric.Registry) (text : String) (c : Compiled) (h : compile known text = .ok c) :
    compile known c.formula.text = .ok c ∧ c.formula.equivalent c.formula = true := by
  obtain ⟨hspelled, hc, hknown⟩ := spelled_of_compile h
  refine ⟨?_, equivalent_self hspelled.constants⟩
  rw [compile_text_of_spelled hspelled hknown, ← hc]

/-- Weights come back in the order of their metrics, with the numbers in their shortest form. -/
theorem compile_text_of_weights :
    ∃ c, compile .standard "weighted_sum(rouge : -0.50,bleu:2e3)" = .ok c ∧
      c.formula.text = "WEIGHTED_SUM(BLEU: 2000, ROUGE: -0.5)" ∧
        compile .standard c.formula.text = .ok c ∧ c.formula.equivalent c.formula = true := by
  have htext : ((compile .standard "weighted_sum(rouge : -0.50,bleu:2e3)").map (·.formula.text)).toOption =
      some "WEIGHTED_SUM(BLEU: 2000, ROUGE: -0.5)" := by decide +kernel
  cases h : compile .standard "weighted_sum(rouge : -0.50,bleu:2e3)" with
  | error faults =>
      rw [h] at htext
      cases htext
  | ok c =>
      rw [h] at htext
      exact ⟨c, rfl, Option.some.inj htext, compile_text _ _ c h⟩

/-- A registry that was given the metrics of a formula knows those that are identifiers. -/
theorem contains_withNames_of_spelled (known : Metric.Registry) {f : Formula} (hf : f.Spelled) :
    ∀ name, f.metrics.contains name = true → (known.withNames f.metrics.keys).names.contains name = true := by
  intro name hname
  have hidentifier := hf.names name hname
  refine (Metric.Registry.contains_withNames known _ name).mpr (.inr ⟨?_, name, ?_, ?_⟩)
  · rintro rfl
    exact absurd hidentifier (by decide)
  · exact Table.contains_iff_mem_keys.mp hname
  · exact normalize_of_isIdentifier hidentifier

/-- With its metrics registered, the text of the formula compiles to a formula that equals it. -/
def ComesBack (known : Metric.Registry) (f : Formula) : Prop :=
  ∃ c, compile (known.withNames f.metrics.keys) f.text = .ok c ∧ c.formula.equivalent f = true

theorem comesBack_iff_spelled {known : Metric.Registry} {f : Formula} : ComesBack known f ↔ f.Spelled := by
  constructor
  · rintro ⟨c, hcompile, hequal⟩
    exact spelled_of_equivalent (spelled_of_compile hcompile).1 hequal
  · intro hspelled
    refine ⟨_, compile_text_of_spelled hspelled (contains_withNames_of_spelled known hspelled), ?_⟩
    exact equivalent_self hspelled.constants

/-- A formula comes back from its own text if and only if it has an expression, its metrics are
identifiers in upper case and its constants are finite. So having an expression tells whether it comes
back for those formulas only whose metrics and constants are such, and for those without an expression. -/
theorem comesBack_iff (known : Metric.Registry) (f : Formula) :
    (ComesBack known f ↔
        f.hasExpression = true ∧ (∀ name, f.metrics.contains name = true → isIdentifier name = true) ∧
          ∀ x ∈ f.constants, x.isFinite = true) ∧
      ((ComesBack known f ↔ f.hasExpression = true) ↔
        (f.hasExpression = true →
          (∀ name, f.metrics.contains name = true → isIdentifier name = true) ∧
            ∀ x ∈ f.constants, x.isFinite = true)) := by
  have hiff : ComesBack known f ↔
      f.hasExpression = true ∧ (∀ name, f.metrics.contains name = true → isIdentifier name = true) ∧
        ∀ x ∈ f.constants, x.isFinite = true := by
    rw [comesBack_iff_spelled]
    exact ⟨fun ⟨h, hnames, hconstants⟩ => ⟨h, hnames, hconstants⟩, fun ⟨h, hnames, hconstants⟩ => ⟨h, hnames, hconstants⟩⟩
  refine ⟨hiff, ?_⟩
  rw [hiff]
  exact ⟨fun h hexpression => (h.mpr hexpression).2, fun h => ⟨And.left, fun hexpression => ⟨hexpression, h hexpression⟩⟩⟩

/-- A metric with a blank inside is no identifier, so its formula does not come back. -/
theorem not_comesBack_of_blank :
    (Formula.averageOf ["my metric"]).hasExpression = true ∧ ¬ComesBack .standard (Formula.averageOf ["my metric"]) := by
  refine ⟨rfl, fun h => ?_⟩
  have hmetric : (Formula.averageOf ["my metric"]).metrics.contains "MY METRIC" = true := by decide +kernel
  have hname := (comesBack_iff_spelled.mp h).names "MY METRIC" hmetric
  exact absurd hname (by decide)

end Scorecard.Expression
