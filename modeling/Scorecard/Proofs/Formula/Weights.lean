import Scorecard.Proofs.Formula.RoundTrip

/-!
Weights supplied and kept. A metric has one weight in a formula, so of pairs that name one metric with several
weights all but one are lost. The constructor and the reader of documents lose a weight exactly if there are such
pairs, in whichever spellings. Texts are refused instead, so nothing that compiles has lost a weight.
-/
namespace Scorecard.Formula

open Json (Document)

/-- Each of the supplied pairs is in the formula, with its weight under the normal form of its name. -/
def Represents (f : Formula) (pairs : List (String × Float)) : Prop :=
  ∃ weights, f = .weightedSum weights ∧ ∀ p ∈ pairs, weights.get? (Metric.normalize p.1) = some p.2

/-- Pairs that name one metric, be it in several spellings, have one weight. -/
def Unambiguous (pairs : List (String × Float)) : Prop :=
  ∀ p ∈ pairs, ∀ q ∈ pairs, Metric.normalize p.1 = Metric.normalize q.1 → p.2 = q.2

theorem Represents.unambiguous {f : Formula} {pairs : List (String × Float)} (h : Represents f pairs) :
    Unambiguous pairs := by
  obtain ⟨weights, -, hweights⟩ := h
  intro p hp q hq hname
  have hsame := hweights p hp
  rw [hname, hweights q hq] at hsame
  exact (Option.some.inj hsame).symm

theorem Unambiguous.mono {pairs pairs' : List (String × Float)} (h : Unambiguous pairs) (hsub : pairs' ⊆ pairs) :
    Unambiguous pairs' :=
  fun p hp q hq => h p (hsub hp) q (hsub hq)

/-- The constructor keeps every pair exactly if no two of them name one metric with different weights. -/
theorem represents_weightedSumOf_iff {pairs : List (String × Float)} :
    Represents (weightedSumOf pairs) pairs ↔ Unambiguous pairs := by
  refine ⟨Represents.unambiguous, fun h => ⟨_, rfl, fun p hp => ?_⟩⟩
  have hagree : ∀ e ∈ pairs.map (fun p => (Metric.normalize p.1, p.2)),
      ∀ e' ∈ pairs.map (fun p => (Metric.normalize p.1, p.2)), e.1 = e'.1 → e.2 = e'.2 :=
    List.forall_mem_map.mpr fun p hp => List.forall_mem_map.mpr (h p hp)
  exact (Table.get?_ofList_eq_some_iff_of_agree hagree).mpr (List.mem_map_of_mem hp)

/-- A table of unambiguous pairs holds them all, so a second reading of it loses nothing. -/
theorem represents_weightedSumOf_entries_iff {pairs : List (String × Float)} :
    Represents (weightedSumOf (Table.ofList pairs).entries) pairs ↔ Unambiguous pairs := by
  refine ⟨Represents.unambiguous, fun h => ?_⟩
  have hagree : ∀ p ∈ pairs, ∀ q ∈ pairs, p.1 = q.1 → p.2 = q.2 :=
    fun p hp q hq hname => h p hp q hq (congrArg Metric.normalize hname)
  have hentries (p : String × Float) : p ∈ (Table.ofList pairs).entries ↔ p ∈ pairs :=
    (Table.mem_entries_iff _ p.1 p.2).trans (Table.get?_ofList_eq_some_iff_of_agree hagree)
  obtain ⟨weights, hf, hweights⟩ := represents_weightedSumOf_iff.mpr (h.mono fun p hp => (hentries p).mp hp)
  exact ⟨weights, hf, fun p hp => hweights p ((hentries p).mpr hp)⟩

/-- The pairs that the members of an object supply. -/
def suppliedBy (numbers : List (String × Json.Number)) : List (String × Float) :=
  numbers.map fun e => (e.1, e.2.toFloat)

/-- The document gives an object of weights, and the formula has each of its members exactly if these are
unambiguous. -/
def KeepsMembers (d : Document) (f : Formula) : Prop :=
  ∃ fields numbers, Kind.weightedSum.Gives d fields ∧
    fields.lookup "weights" = some (.object (numbers.map fun e => (e.1, .number e.2))) ∧
    (Represents f (suppliedBy numbers) ↔ Unambiguous (suppliedBy numbers))

/-- The text writes weights, one for each metric, and the formula has all of them. -/
def KeepsWritten (text : String) (f : Formula) : Prop :=
  ∃ inner pairs, (Expression.tokens text).map (·.symbol) =
      .identifier Kind.weightedSum.keyword :: .openParen :: (inner ++ [.closeParen]) ∧
    List.Forall₂ Expression.IsWeight (Expression.parts inner) pairs ∧ (pairs.map (·.1)).Nodup ∧ Represents f pairs

theorem keepsMembers_of_ofDocument? {d : Document} {f : Formula} (h : ofDocument? d = some f)
    (hkind : f.kind = .weightedSum) : KeepsMembers d f := by
  obtain ⟨fields, hgives, hmade⟩ := madeOf_of_ofDocument? h
  rw [hkind] at hgives
  cases hmade with
  | weightedSumOf numbers _ hweights => exact ⟨fields, numbers, hgives, hweights, represents_weightedSumOf_entries_iff⟩
  | _ => cases hkind

theorem keepsWritten_of_compile {known : Metric.Registry} {text : String} {c : Expression.Compiled}
    (h : Expression.compile known text = .ok c) (hkind : c.formula.kind = .weightedSum) : KeepsWritten text c.formula := by
  have hnormal := (Obtained.compiled h).normal
  have hderives := Expression.compile_eq_ok_iff_derives.mp h
  unfold KeepsWritten
  generalize (Expression.tokens text).map (·.symbol) = ss at hderives
  cases hderives with
  | @call f inner _ harguments _ =>
      generalize hparts : Expression.parts inner = ps at harguments
      cases harguments with
      | @weightedSum _ weights _ hweights hdistinct =>
          refine ⟨inner, weights, rfl, hparts ▸ hweights, hdistinct, _, rfl, fun p hp => ?_⟩
          have hentry := (Table.get?_ofList_eq_some_iff hdistinct).mpr hp
          -- the names of a text are identifiers, which are in normal form
          have hname := hnormal p.1 (NameSet.contains_ofList.mpr
            (Table.contains_iff_mem_keys.mp (Option.isSome_of_eq_some hentry)))
          rw [hname]
          exact hentry
      | _ => cases hkind

/-- Supplied weights are kept exactly if no two pairs name one metric with different weights: by the constructor,
whatever the pairs, and by the reader, whatever the members of the object that it accepts. A text that compiles
names no metric twice, and all that it writes is kept. -/
theorem weights_kept (pairs : List (String × Float)) (d : Document) (known : Metric.Registry) (text : String) :
    (Represents (weightedSumOf pairs) pairs ↔ Unambiguous pairs) ∧
      (∀ f, ofDocument? d = some f → f.kind = .weightedSum → KeepsMembers d f) ∧
      ∀ c, Expression.compile known text = .ok c → c.formula.kind = .weightedSum → KeepsWritten text c.formula :=
  ⟨represents_weightedSumOf_iff, fun _ => keepsMembers_of_ofDocument?, fun _ => keepsWritten_of_compile⟩

def documentOf (numbers : List (String × Json.Number)) : Document :=
  .object [("type", .string "weighted_sum"), ("weights", .object (numbers.map fun e => (e.1, .number e.2)))]

/-- Two spellings of one metric that agree on its weight. -/
def agreeing : List (String × Json.Number) := [("BLEU", .float 0.5 (by decide)), (" bleu", .float 0.5 (by decide))]

theorem weights_kept_of_agreeing :
    Represents (weightedSumOf (suppliedBy agreeing)) (suppliedBy agreeing) ∧
      (∃ f, ofDocument? (documentOf agreeing) = some f ∧ f.kind = .weightedSum ∧ KeepsMembers (documentOf agreeing) f) ∧
      ∃ c, Expression.compile .standard "weighted_sum(bleu: 0.5)" = .ok c ∧ c.formula.kind = .weightedSum ∧
        KeepsWritten "weighted_sum(bleu: 0.5)" c.formula := by
  have hunambiguous : Unambiguous (suppliedBy agreeing) := by
    unfold Unambiguous
    decide +kernel
  have hread : ofDocument? (documentOf agreeing) = some (weightedSumOf [("BLEU", 0.5)]) := by decide +kernel
  have hcompiled : ((Expression.compile .standard "weighted_sum(bleu: 0.5)").map (·.formula.kind)).toOption =
      some .weightedSum := by decide +kernel
  obtain ⟨hsupplied, hmembers, hwritten⟩ :=
    weights_kept (suppliedBy agreeing) (documentOf agreeing) .standard "weighted_sum(bleu: 0.5)"
  refine ⟨hsupplied.mpr hunambiguous, ⟨_, hread, rfl, hmembers _ hread rfl⟩, ?_⟩
  cases h : Expression.compile .standard "weighted_sum(bleu: 0.5)" with
  | error faults =>
      rw [h] at hcompiled
      cases hcompiled
  | ok c =>
      rw [h] at hcompiled
      have hkind : c.formula.kind = .weightedSum := Option.some.inj hcompiled
      exact ⟨c, rfl, hkind, hwritten c h hkind⟩

/-- Two spellings of one metric with different weights. -/
def disagreeing : List (String × Json.Number) := [("BLEU", .float 0.25 (by decide)), ("bleu", .float 0.5 (by decide))]

/-- Both the constructor and the reader accept the two spellings and keep one weight, where a text is refused. -/
theorem not_represents_disagreeing :
    ¬Represents (weightedSumOf (suppliedBy disagreeing)) (suppliedBy disagreeing) ∧
      (∃ f, ofDocument? (documentOf disagreeing) = some f ∧ ¬Represents f (suppliedBy disagreeing)) ∧
      (Expression.compile .standard "WEIGHTED_SUM(BLEU: 0.25, bleu: 0.5)").isOk = false := by
  have hambiguous : ¬Unambiguous (suppliedBy disagreeing) := by
    unfold Unambiguous
    decide +kernel
  have hread : ofDocument? (documentOf disagreeing) = some (weightedSumOf [("BLEU", 0.5)]) := by decide +kernel
  exact ⟨fun h => hambiguous h.unambiguous, ⟨_, hread, fun h => hambiguous h.unambiguous⟩, by decide +kernel⟩

end Scorecard.Formula
