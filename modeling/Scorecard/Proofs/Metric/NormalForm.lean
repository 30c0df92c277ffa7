import Scorecard.Proofs.Benchmark.Aggregate
import Scorecard.Proofs.Expression.Lexing
import Scorecard.Proofs.Formula.RoundTrip
import Scorecard.Proofs.Metric.Union

/-!
One normal form for all names. Every name that is kept is in normal form, whether a registry, a formula, a table of
aggregated metrics or an expression keeps it, so that names of different origin may be compared as they are.
-/
namespace Scorecard.Metric

/-- The names that are kept to be compared as they are. Every registry begins with no names and comes about by
registration, the standard one too. -/
inductive Kept : String → Prop
  | registered {batches : List (List String)} {name : String}
      (h : ((∅ : Registry).registerAll batches).1.names.contains name = true) : Kept name
  | formula {f : Formula} {name : String} (hf : f.Obtained) (h : f.metrics.contains name = true) : Kept name
  | aggregated {traces : List Trace} {name : String} (h : (aggregate traces).contains name = true) : Kept name
  | lexed {text : String} {t : Expression.Token} {name : String} (h : t ∈ Expression.tokens text)
      (hname : t.symbol = .identifier name) : Kept name

/-- The identifiers of a text are words in upper case, which are in normal form. -/
theorem normalize_of_mem_tokens {text : String} {t : Expression.Token} {name : String} (h : t ∈ Expression.tokens text)
    (hname : t.symbol = .identifier name) : normalize name = name := by
  have hsymbol : .identifier name ∈ Expression.symbols text.toList := by
    rw [← Expression.map_symbol_tokens]
    exact List.mem_map.mpr ⟨t, h, hname⟩
  exact Expression.normalize_of_isIdentifier (Expression.isIdentifier_of_mem_symbols hsymbol)

theorem Kept.inNormalForm {name : String} (h : Kept name) : InNormalForm name := by
  cases h with
  | registered h =>
      obtain hbefore | ⟨given, -, -, rfl⟩ := (Registry.contains_registerAll ∅ _ name).mp h
      · cases hbefore
      · exact inNormalForm_normalize given
  | formula hf h => exact inNormalForm_iff.mpr (hf.normal name h)
  | aggregated h =>
      rw [contains_aggregate_iff, finiteValues_ne_nil_iff] at h
      obtain ⟨m, -, -, rfl⟩ := h
      exact inNormalForm_normalize m.metric
  | lexed h hname => exact inNormalForm_iff.mpr (normalize_of_mem_tokens h hname)

/-- Names that are kept are the same exactly if they have the same normal form, wherever each of them is kept. -/
theorem Kept.normalize_eq_iff {name name' : String} (h : Kept name) (h' : Kept name') :
    normalize name = normalize name' ↔ name = name' := by
  rw [h.inNormalForm.normalize_eq, h'.inNormalForm.normalize_eq]

/-- A registry need not bring a name that is kept into normal form to look it up. -/
theorem Kept.knows_eq {name : String} (h : Kept name) (r : Registry) : r.knows name = r.names.contains name := by
  rw [Registry.knows, h.inNormalForm.normalize_eq]

/-- Bringing a name into normal form twice is the same as bringing it into normal form once, and does nothing to the
identifiers of an expression. The names in normal form are those that it leaves alone, and all names that are kept are
among them: whether two of these are the same, and whether a registry has one of them, does not depend on bringing
them into normal form before. -/
theorem normalize_idempotent :
    (∀ name, normalize (normalize name) = normalize name) ∧
      (∀ text, ∀ t ∈ Expression.tokens text, ∀ name, t.symbol = .identifier name → normalize name = name) ∧
      (∀ name, InNormalForm name ↔ normalize name = name) ∧
      (∀ name, Kept name → InNormalForm name ∧ ∀ r : Registry, r.knows name = r.names.contains name) ∧
      ∀ name name', Kept name → Kept name' → (normalize name = normalize name' ↔ name = name') := by
  refine ⟨normalize_normalize, ?_, fun _ => inNormalForm_iff, ?_, ?_⟩
  · intro text t ht name hname
    exact normalize_of_mem_tokens ht hname
  · intro name h
    exact ⟨h.inNormalForm, h.knows_eq⟩
  · intro name name' h h'
    exact h.normalize_eq_iff h'

/-- A street that an expression names is not the metric that a registry has. -/
theorem normalize_idempotent_of_street :
    let t : Expression.Token := ⟨.identifier "STRASSE", ⟨1, 5⟩⟩
    let batches := [["rouge"], ["bleu "]]
    normalize (normalize "\u00A0straße") = "STRASSE" ∧ t ∈ Expression.tokens "MAX(Strasse)" ∧
      normalize "STRASSE" = "STRASSE" ∧ InNormalForm "STRASSE" ∧
      ((∅ : Registry).registerAll batches).1.names.contains "BLEU" = true ∧ normalize "STRASSE" ≠ normalize "BLEU" := by
  intro t batches
  obtain ⟨hagain, hlexed, -, hkept, hcompared⟩ := normalize_idempotent
  have hnormal : normalize "\u00A0straße" = "STRASSE" := by decide +kernel
  have hmem : t ∈ Expression.tokens "MAX(Strasse)" := by decide +kernel
  have hregistered : ((∅ : Registry).registerAll batches).1.names.contains "BLEU" = true := by decide +kernel
  have hstreet : Kept "STRASSE" := .lexed hmem rfl
  refine ⟨(hagain _).trans hnormal, hmem, hlexed _ t hmem _ rfl, (hkept _ hstreet).1, hregistered, ?_⟩
  exact mt (hcompared _ _ hstreet (.registered hregistered)).mp (by decide)

end Scorecard.Metric
