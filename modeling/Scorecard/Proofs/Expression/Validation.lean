import Scorecard.Proofs.Expression.Printing
import Scorecard.Proofs.Formula.Evaluation

/-!
Validated expressions can be evaluated. The metrics that an expression names are those that its formula
reads, and it names at least one; so whoever has a value for each name that validation compared has all
that evaluation asks for.
-/
namespace Scorecard.Expression

open Formula (Supplies)

/-- The check lets through what compiled, if each metric that it names is available in some spelling. -/
theorem checkAvailable_eq_ok_iff {available : List String} {outcome : Outcome} {c : Compiled} :
    checkAvailable available outcome = .ok c ↔
      outcome = .ok c ∧ ∀ name, c.references.contains name = true → name ∈ available.map Metric.normalize := by
  cases outcome with
  | error faults => simp [checkAvailable, bind, Except.bind]
  | ok c' =>
      have hmissing : (c'.references.keys.filter fun name =>
          !(NameSet.ofList (available.map Metric.normalize)).contains name).isEmpty = true ↔
            ∀ name, c'.references.contains name = true → name ∈ available.map Metric.normalize := by
        simp only [List.isEmpty_iff, List.filter_eq_nil_iff, Bool.not_eq_true', Bool.not_eq_false,
          NameSet.contains_ofList, ← Table.contains_iff_mem_keys]
      simp only [checkAvailable, bind, Except.bind, Except.ok.injEq]
      constructor
      · intro h
        split at h
        · rename_i hnone
          obtain rfl : c' = c := Except.ok.inj h
          exact ⟨rfl, hmissing.mp hnone⟩
        · cases h
      · rintro ⟨rfl, hall⟩
        rw [if_pos (hmissing.mpr hall)]
        rfl

theorem evaluate_of_compile {known : Metric.Registry} {text : String} {c : Compiled} {values : Table Float}
    (hcompile : compile known text = .ok c) (h : ∀ name, c.references.contains name = true → Supplies values name) :
    ∃ score, c.formula.evaluate values = .ok score := by
  obtain ⟨hspelled, hc, -⟩ := spelled_of_compile hcompile
  have hreferences : c.references = c.formula.metrics := congrArg Compiled.references hc
  rw [hreferences] at h
  exact Formula.evaluate_of_supplies (Formula.exists_metric_of_hasExpression hspelled.expression) h

/-- What compiles has a score on every table of values that has its metrics, and what is validated
against available metrics on every table that has those. -/
theorem evaluate_of_validated (known : Metric.Registry) (text : String) (values : Table Float) :
    (∀ available c, checkAvailable available (compile known text) = .ok c →
        (∀ name ∈ available, Supplies values (Metric.normalize name)) →
          ∃ score, c.formula.evaluate values = .ok score) ∧
      ∀ c, compile known text = .ok c → (∀ name, c.references.contains name = true → Supplies values name) →
        ∃ score, c.formula.evaluate values = .ok score := by
  refine ⟨fun available c hvalid havailable => ?_, fun c => evaluate_of_compile⟩
  obtain ⟨hcompile, hreferences⟩ := checkAvailable_eq_ok_iff.mp hvalid
  refine evaluate_of_compile hcompile fun name hname => ?_
  obtain ⟨spelling, hspelling, rfl⟩ := List.mem_map.mp (hreferences name hname)
  exact havailable spelling hspelling

/-- Spellings that differ from those of the text stand for the same metrics. -/
theorem evaluate_of_validated_weights :
    let text := "weighted_sum(rouge : 0.5, bleu: 0.25)"
    let values := Table.ofList [("BLEU", 0), ("LATENCY", 3), ("ROUGE", 1)]
    ∃ c, checkAvailable ["Rouge ", "latency", " bleu"] (compile .standard text) = .ok c ∧
      compile .standard text = .ok c ∧ ∃ score, c.formula.evaluate values = .ok score := by
  intro text values
  have hvalid : (checkAvailable ["Rouge ", "latency", " bleu"] (compile .standard text)).isOk = true := by
    decide +kernel
  have hsupplies : ∀ name ∈ ["Rouge ", "latency", " bleu"], Supplies values (Metric.normalize name) := by
    decide +kernel
  cases h : checkAvailable ["Rouge ", "latency", " bleu"] (compile .standard text) with
  | error faults =>
      rw [h] at hvalid
      cases hvalid
  | ok c =>
      exact ⟨c, rfl, (checkAvailable_eq_ok_iff.mp h).1, (evaluate_of_validated _ _ values).1 _ c h hsupplies⟩

end Scorecard.Expression
