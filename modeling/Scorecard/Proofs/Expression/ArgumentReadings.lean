import Scorecard.Proofs.Decimal.Reading
import Scorecard.Proofs.Expression.Grammar

/-!
What the readers of arguments accept. Each is compared with the shape that the grammar gives a part: it
succeeds on that shape, and on nothing else.
-/
namespace Scorecard.Expression

/-- The identifiers among the symbols are identifiers in upper case, as those of a text are. -/
def Lexed (ss : List Symbol) : Prop := ∀ name, .identifier name ∈ ss → isIdentifier name = true

theorem Lexed.mono {ss ss' : List Symbol} (h : Lexed ss) (hsub : ss' ⊆ ss) : Lexed ss' :=
  fun name hname => h name (hsub hname)

/-! ### Numbers -/

/-- No identifier spells a finite number: what words there are for numbers stand for infinite ones. -/
theorem not_spells_of_isIdentifier {name : String} (h : isIdentifier name = true) (x : Float) : ¬Spells name x := by
  obtain ⟨c, cs, hchars, hc, -, -⟩ := isIdentifierChars_iff.mp h
  have hdigit : c.isDigit = false ∧ c ≠ '-' ∧ c ≠ '+' ∧ c ≠ '.' :=
    ascii_forall (P := fun c => isIdentifierStart c = true → c.isDigit = false ∧ c ≠ '-' ∧ c ≠ '+' ∧ c ≠ '.')
      (by decide) (toNat_lt_of_isIdentifierPart (isIdentifierPart_of_start hc)) hc
  obtain ⟨hdigit, hminus, hplus, hpoint⟩ := hdigit
  rintro ⟨hread, hfinite⟩
  rw [Decimal.read, hchars] at hread
  rw [Decimal.not_isFinite_of_readChars hdigit hpoint hminus hplus hread] at hfinite
  contradiction

theorem finiteNumber_eq_ok_iff {slot : NumberSlot} {text : String} {p : Position} {x : Float} :
    Argument.finiteNumber slot text p = .ok x ↔ Spells text x := by
  unfold Argument.finiteNumber Spells
  cases Decimal.read text with
  | error e => simp
  | ok y =>
      by_cases hy : y.isFinite = true
      · simp only [hy, if_true, Except.ok.injEq]
        exact ⟨fun h => ⟨h, h ▸ hy⟩, And.left⟩
      · simp only [hy, Bool.false_eq_true, if_false, reduceCtorEq, Except.ok.injEq, false_iff, not_and]
        exact fun h => h ▸ hy

namespace Argument

theorem metric_eq_ok_iff {a : Argument} {r : Reference} :
    a.metric = .ok r ↔ a.tokens = [⟨.identifier r.name, r.position⟩] := by
  obtain ⟨rname, rposition⟩ := r
  fun_cases Argument.metric a with
  | case1 h => simp [h]
  | case2 name p h => simp [h]
  | case3 name p q rest h => simp [h]
  | case4 name p next rest hcolon h => simp [h]
  | case5 first rest hsingle hcolon hnext h =>
      simp only [h, reduceCtorEq, List.cons.injEq, false_iff, not_and]
      exact fun hfirst => hsingle _ _ hfirst

/-- An argument is a number if it is one number with a finite value. -/
theorem number_eq_ok_iff {slot : NumberSlot} {a : Argument} {x : Float} (ha : Lexed a.symbols) :
    a.number slot = .ok x ↔ ∃ text p, a.tokens = [⟨.number text, p⟩] ∧ Spells text x := by
  fun_cases Argument.number slot a with
  | case1 h => simp [h]
  | case2 text p h => simp [h, finiteNumber_eq_ok_iff]
  | case3 text p h =>
      have hname : isIdentifier text = true := ha text (by simp [symbols, h])
      simp [h, finiteNumber_eq_ok_iff, not_spells_of_isIdentifier hname]
  | case4 first rest hnumber hidentifier h => grind

end Argument

/-! ### Lists of metrics -/

/-- All arguments are metrics if each is one identifier, and then they name the identifiers. -/
theorem metrics_iff {arguments : List Argument} {names : List String} :
    ((arguments.map Argument.metric).filterMap fault? = [] ∧
        ((arguments.map Argument.metric).filterMap read?).map (·.name) = names) ↔
      arguments.map Argument.symbols = names.map fun name => [.identifier name] := by
  induction arguments generalizing names with
  | nil => cases names <;> simp
  | cons a as ih =>
      cases hread : a.metric with
      | error e =>
          have hne : ∀ name, a.symbols ≠ [.identifier name] := by
            intro name hname
            obtain ⟨t, ht, hsymbol⟩ := List.map_eq_singleton_iff.mp hname
            have hok : a.metric = .ok ⟨name, t.position⟩ := Argument.metric_eq_ok_iff.mpr (by rw [ht, ← hsymbol])
            rw [hread] at hok
            contradiction
          have hfault : ((a :: as).map Argument.metric).filterMap fault? ≠ [] := by
            rw [List.map_cons, hread, List.filterMap_cons]
            exact List.cons_ne_nil _ _
          constructor
          · rintro ⟨hfaults, -⟩
            exact absurd hfaults hfault
          · intro h
            cases names with
            | nil => cases h
            | cons name names => exact absurd (List.cons.inj h).1 (hne name)
      | ok r =>
          have hsymbols : a.symbols = [.identifier r.name] := by
            rw [Argument.symbols, Argument.metric_eq_ok_iff.mp hread, List.map_singleton]
          cases names with
          | nil => simp [hread, fault?, read?]
          | cons name names =>
              simp only [List.map_cons, hread, List.filterMap_cons, fault?, read?, hsymbols, List.cons.injEq,
                Symbol.identifier.injEq, and_true]
              rw [← ih]
              exact and_left_comm

/-! ### Weights -/

/-- An argument is a pair if it is a metric, a colon, and a number with a finite value. -/
theorem ofArgument_eq_pair_iff {a : Argument} {r : Reference} {x : Float} (ha : Lexed a.symbols) :
    WeightReading.ofArgument a = .pair r (.ok x) ↔
      ∃ q text p, a.tokens = [⟨.identifier r.name, r.position⟩, ⟨.colon, q⟩, ⟨.number text, p⟩] ∧ Spells text x := by
  obtain ⟨rname, rposition⟩ := r
  fun_cases WeightReading.ofArgument a with
  | case1 h => simp [h]
  | case2 name p q weight h =>
      have hweight : Lexed (Argument.ofTokens weight q).symbols := by
        refine ha.mono ?_
        rw [Argument.symbols, Argument.symbols, Argument.tokens_ofTokens, h, List.map_cons, List.map_cons]
        exact fun s hs => List.mem_cons_of_mem _ (List.mem_cons_of_mem _ hs)
      rw [WeightReading.pair.injEq, Argument.number_eq_ok_iff hweight, Argument.tokens_ofTokens, h]
      grind
  | case3 name p next rest hcolon h => grind
  | case4 name p h => simp [h]
  | case5 first rest hcolon hnext hsingle h => grind

/-- The reading of a pair without a fault. -/
def WeightReading.ofPair (entry : Reference × Float) : WeightReading := .pair entry.1 (.ok entry.2)

theorem filterMap_fault?_eq_nil_iff {readings : List WeightReading} :
    readings.filterMap (·.fault?) = [] ↔ ∃ pairs : List (Reference × Float), readings = pairs.map WeightReading.ofPair := by
  constructor
  · intro h
    induction readings with
    | nil => exact ⟨[], rfl⟩
    | cons r rs ih =>
        have hfaults : ∀ r' ∈ r :: rs, r'.fault? = none := List.filterMap_eq_nil_iff.mp h
        obtain ⟨hr, hrs⟩ := List.forall_mem_cons.mp hfaults
        obtain ⟨pairs, rfl⟩ := ih (List.filterMap_eq_nil_iff.mpr hrs)
        cases r with
        | malformed metric fault => cases hr
        | pair metric weight =>
            cases weight with
            | error fault => cases hr
            | ok x => exact ⟨(metric, x) :: pairs, rfl⟩
  · rintro ⟨pairs, rfl⟩
    rw [List.filterMap_map, List.filterMap_eq_nil_iff]
    intro entry _
    rfl

theorem filterMap_weight?_ofPair (pairs : List (Reference × Float)) :
    (pairs.map WeightReading.ofPair).filterMap (·.weight?) = pairs.map fun entry => (entry.1.name, entry.2) := by
  rw [List.filterMap_map, ← List.filterMap_eq_map]
  rfl

theorem filterMap_reference?_ofPair (pairs : List (Reference × Float)) :
    (pairs.map WeightReading.ofPair).filterMap (·.reference?) = pairs.map (·.1) := by
  rw [List.filterMap_map, ← List.filterMap_eq_map]
  rfl

/-- The metric of a pair. -/
def WeightReading.metric? : WeightReading → Option Reference
  | .pair metric _ => some metric
  | .malformed .. => none

/-- The fault of a metric that is weighted again. -/
def Reference.repetition (s : Reference) : Fault := invalid (.repeatedWeight s.name) s.position

/-- One step of the search for repeated weights. -/
theorem repeatedWeights_cons (weighted : List String) (r : WeightReading) (rs : List WeightReading) :
    repeatedWeights weighted (r :: rs) =
      (r.metric?.filter fun s => s.name ∈ weighted).toList.map Reference.repetition ++
        repeatedWeights ((r.weight?.map (·.1)).toList ++ weighted) rs := by
  rw [repeatedWeights.eq_def]
  cases r with
  | malformed metric fault => rfl
  | pair metric weight =>
      dsimp only [WeightReading.metric?]
      rw [Option.filter_some]
      by_cases hmem : metric.name ∈ weighted
      · cases weight <;> simp [hmem, WeightReading.weight?, Reference.repetition]
      · cases weight <;> simp [hmem, WeightReading.weight?]

/-- No weight is repeated if all metrics are distinct, and none of them was weighted before. -/
theorem repeatedWeights_eq_nil_iff {weighted : List String} {pairs : List (Reference × Float)} :
    repeatedWeights weighted (pairs.map WeightReading.ofPair) = [] ↔
      (∀ entry ∈ pairs, entry.1.name ∉ weighted) ∧ (pairs.map (·.1.name)).Nodup := by
  induction pairs generalizing weighted with
  | nil => simp [repeatedWeights]
  | cons entry pairs ih =>
      rw [List.map_cons, repeatedWeights_cons, List.append_eq_nil_iff, List.map_eq_nil_iff, Option.toList_eq_nil_iff]
      dsimp only [WeightReading.ofPair, WeightReading.metric?]
      rw [Option.filter_some]
      by_cases h : entry.1.name ∈ weighted
      · simp [h]
      · simp only [h, decide_false, Bool.false_eq_true, if_false, true_and]
        rw [ih, List.forall_mem_cons, List.map_cons, List.nodup_cons]
        constructor
        · rintro ⟨hnone, hnodup⟩
          refine ⟨⟨h, fun e he hmem => hnone e he (List.mem_cons_of_mem _ hmem)⟩, ?_, hnodup⟩
          intro hmem
          obtain ⟨e, he, heq⟩ := List.mem_map.mp hmem
          exact hnone e he (heq ▸ List.mem_cons_self)
        · rintro ⟨⟨-, hnone⟩, hdistinct, hnodup⟩
          refine ⟨fun e he hmem => ?_, hnodup⟩
          cases List.mem_cons.mp hmem with
          | inl heq => exact hdistinct (List.mem_map.mpr ⟨e, he, heq⟩)
          | inr hmem => exact hnone e he hmem

/-- The arguments that read as pairs without a fault are the weights that the grammar knows. -/
theorem weights_iff {arguments : List Argument} {weights : List (String × Float)}
    (hlexed : ∀ a ∈ arguments, Lexed a.symbols) :
    (∃ pairs : List (Reference × Float), arguments.map WeightReading.ofArgument = pairs.map WeightReading.ofPair ∧
        (pairs.map fun entry => (entry.1.name, entry.2)) = weights) ↔
      List.Forall₂ IsWeight (arguments.map Argument.symbols) weights := by
  induction arguments generalizing weights with
  | nil => cases weights <;> simp
  | cons a as ih =>
      have ha : Lexed a.symbols := hlexed a List.mem_cons_self
      have has : ∀ b ∈ as, Lexed b.symbols := fun b hb => hlexed b (List.mem_cons_of_mem a hb)
      constructor
      · rintro ⟨pairs, hreadings, rfl⟩
        cases pairs with
        | nil => cases hreadings
        | cons entry pairs =>
            obtain ⟨hhead, htail⟩ := List.cons.inj hreadings
            obtain ⟨q, text, p, htokens, hspells⟩ := (ofArgument_eq_pair_iff ha).mp hhead
            refine .cons ⟨text, ?_, hspells⟩ ((ih has).mp ⟨pairs, htail, rfl⟩)
            rw [Argument.symbols, htokens]
            rfl
      · intro h
        cases h with
        | @cons _ entry _ rest hweight hrest =>
            obtain ⟨text, hsymbols, hspells⟩ := hweight
            obtain ⟨pairs, htail, rfl⟩ := (ih has).mpr hrest
            obtain ⟨t, ts, htokens, ht, hts⟩ := List.map_eq_cons_iff.mp hsymbols
            obtain ⟨u, us, rfl, hu, hus⟩ := List.map_eq_cons_iff.mp hts
            obtain ⟨v, rfl, hv⟩ := List.map_eq_singleton_iff.mp hus
            have hhead : WeightReading.ofArgument a = .pair ⟨entry.1, t.position⟩ (.ok entry.2) := by
              refine (ofArgument_eq_pair_iff ha).mpr ⟨u.position, text, v.position, ?_, hspells⟩
              rw [htokens, ← ht, ← hu, ← hv]
            refine ⟨(⟨entry.1, t.position⟩, entry.2) :: pairs, ?_, rfl⟩
            rw [List.map_cons, List.map_cons, hhead, htail]
            rfl

end Scorecard.Expression
