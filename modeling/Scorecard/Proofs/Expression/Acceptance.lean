import Scorecard.Proofs.Expression.ArgumentReadings
import Scorecard.Proofs.Table

/-!
The compiler accepts exactly the grammar. A call compiles when no fault is found in it, and faults are
looked for argument by argument; so what a call comes to is first stated for each reader of arguments,
then for all of them together, and last for texts. The main statement is `compile_eq_ok_iff`: a text
compiles if and only if its symbols derive, and then to what they derive.
-/
namespace Scorecard.Expression

/-- The reading is the formula `f`, without a fault, and the metrics found on the way are `names`. -/
structure Reading.Gives (r : Reading) (f : Formula) (names : List String) : Prop where
  formula : r.formula? = some f
  faults : r.faults = []
  names : r.references.map (·.name) = names

namespace Reading

variable {opening : Position} {arguments : List Argument} {f : Formula} {names : List String}

theorem ofMetrics_gives_iff {kind : Formula.Kind} {build : List String → Formula} :
    (ofMetrics kind build opening arguments).Gives f names ↔
      names ≠ [] ∧ arguments.map Argument.symbols = (names.map fun name => [.identifier name]) ∧ f = build names := by
  cases arguments with
  | nil =>
      constructor
      · intro h
        cases h.formula
      · rintro ⟨hne, hnames, -⟩
        exact absurd (List.map_eq_nil_iff.mp hnames.symm) hne
  | cons a as =>
      rw [← metrics_iff]
      constructor
      · rintro ⟨hformula, hfaults, hnames⟩
        have hiff := metrics_iff.mp ⟨hfaults, hnames⟩
        refine ⟨?_, ⟨hfaults, hnames⟩, ?_⟩
        · rintro rfl
          cases hiff
        · rw [← hnames]
          exact (Option.some.inj hformula).symm
      · rintro ⟨-, ⟨hfaults, hnames⟩, rfl⟩
        refine ⟨?_, hfaults, hnames⟩
        rw [← hnames]
        rfl

theorem ofWeights_gives_iff (hlexed : ∀ a ∈ arguments, Lexed a.symbols) :
    (ofWeights opening arguments).Gives f names ↔
      ∃ weights : List (String × Float), weights ≠ [] ∧ List.Forall₂ IsWeight (arguments.map Argument.symbols) weights ∧
        (weights.map (·.1)).Nodup ∧ f = .weightedSum (Table.ofList weights) ∧ names = weights.map (·.1) := by
  cases arguments with
  | nil =>
      constructor
      · intro h
        cases h.formula
      · rintro ⟨weights, hne, hweights, -⟩
        cases hweights
        contradiction
  | cons a as =>
      constructor
      · rintro ⟨hformula, hfaults, hnames⟩
        obtain ⟨hnone, hrepeated⟩ := List.append_eq_nil_iff.mp hfaults
        obtain ⟨pairs, hpairs⟩ := filterMap_fault?_eq_nil_iff.mp hnone
        rw [hpairs, repeatedWeights_eq_nil_iff] at hrepeated
        have hweights := (weights_iff hlexed).mp ⟨pairs, hpairs, rfl⟩
        refine ⟨_, ?_, hweights, ?_, ?_, ?_⟩
        · intro hnil
          rw [hnil] at hweights
          cases hweights
        · rw [List.map_map]
          exact hrepeated.2
        · rw [← filterMap_weight?_ofPair, ← hpairs]
          exact (Option.some.inj hformula).symm
        · rw [← hnames, List.map_map]
          show (((a :: as).map WeightReading.ofArgument).filterMap (·.reference?)).map (·.name) = _
          rw [hpairs, filterMap_reference?_ofPair, List.map_map]
          rfl
      · rintro ⟨weights, -, hweights, hdistinct, rfl, rfl⟩
        obtain ⟨pairs, hpairs, rfl⟩ := (weights_iff hlexed).mpr hweights
        have hdistinct' : (pairs.map (·.1.name)).Nodup := by
          rw [List.map_map] at hdistinct
          exact hdistinct
        refine ⟨?_, ?_, ?_⟩
        · rw [← filterMap_weight?_ofPair, ← hpairs]
          rfl
        · refine List.append_eq_nil_iff.mpr ⟨filterMap_fault?_eq_nil_iff.mpr ⟨pairs, hpairs⟩, ?_⟩
          rw [hpairs]
          exact repeatedWeights_eq_nil_iff.mpr ⟨fun _ _ => List.not_mem_nil, hdistinct'⟩
        · show (((a :: as).map WeightReading.ofArgument).filterMap (·.reference?)).map (·.name) = _
          rw [hpairs, filterMap_reference?_ofPair, List.map_map, List.map_map]
          rfl

/-- With two arguments nothing is wrong with their number, and each argument speaks for itself. -/
theorem ofThreshold_pair_gives_iff {a b : Argument} :
    (ofThreshold opening [a, b]).Gives f names ↔
      ∃ r bound, a.metric = .ok r ∧ b.number .threshold = .ok bound ∧ f = .threshold r.name bound .atLeast ∧
        names = [r.name] := by
  constructor
  · rintro ⟨hformula, -, hnames⟩
    unfold ofThreshold at hformula hnames
    cases hmetric : a.metric with
    | error e => simp [hmetric, read?] at hformula
    | ok r =>
        cases hnumber : b.number .threshold with
        | error e => simp [hmetric, hnumber, read?] at hformula
        | ok bound =>
            simp only [List.getElem?_cons_zero, List.getElem?_cons_succ, Option.map_some, Option.bind_some, hmetric,
              hnumber, read?, Option.bind_eq_bind, Option.pure_def, Option.some.injEq] at hformula hnames
            exact ⟨r, bound, rfl, rfl, hformula.symm, hnames.symm⟩
  · rintro ⟨r, bound, hmetric, hnumber, rfl, rfl⟩
    constructor <;> simp [ofThreshold, hmetric, hnumber, read?, fault?]

theorem ofThreshold_gives_iff (hlexed : ∀ a ∈ arguments, Lexed a.symbols) :
    (ofThreshold opening arguments).Gives f names ↔
      ∃ name text bound, arguments.map Argument.symbols = [[.identifier name], [.number text]] ∧ Spells text bound ∧
        f = .threshold name bound .atLeast ∧ names = [name] := by
  match arguments with
  | [] | [a] =>
      constructor
      · rintro ⟨hformula, -, -⟩
        simp [ofThreshold] at hformula
      · rintro ⟨name, text, bound, hsymbols, -⟩
        simp at hsymbols
  | a :: b :: c :: rest =>
      constructor
      · rintro ⟨-, hfaults, -⟩
        simp [ofThreshold] at hfaults
      · rintro ⟨name, text, bound, hsymbols, -⟩
        simp at hsymbols
  | [a, b] =>
      have hb : Lexed b.symbols := hlexed b (List.mem_cons_of_mem a List.mem_cons_self)
      rw [ofThreshold_pair_gives_iff]
      constructor
      · rintro ⟨r, bound, hmetric, hnumber, rfl, rfl⟩
        obtain ⟨text, p, htokens, hspells⟩ := (Argument.number_eq_ok_iff hb).mp hnumber
        refine ⟨r.name, text, bound, ?_, hspells, rfl, rfl⟩
        simp [Argument.symbols, Argument.metric_eq_ok_iff.mp hmetric, htokens]
      · rintro ⟨name, text, bound, hsymbols, hspells, rfl, rfl⟩
        obtain ⟨ha, hrest⟩ := List.cons.inj hsymbols
        obtain ⟨t, htokens, ht⟩ := List.map_eq_singleton_iff.mp ha
        obtain ⟨u, hutokens, hu⟩ := List.map_eq_singleton_iff.mp (List.cons.inj hrest).1
        refine ⟨⟨name, t.position⟩, bound, ?_, ?_, rfl, rfl⟩
        · rw [Argument.metric_eq_ok_iff, htokens, ← ht]
        · rw [Argument.number_eq_ok_iff hb]
          exact ⟨text, u.position, by rw [hutokens, ← hu], hspells⟩

/-- What a call comes to, for all keywords: its kind, and the shape of its arguments. -/
theorem ofCall_gives_iff {call : Call} (hlexed : ∀ a ∈ call.arguments, Lexed a.symbols) :
    (ofCall call).Gives f names ↔
      f.kind = call.kind ∧ Arguments (call.arguments.map Argument.symbols) f ∧
        names = (call.arguments.map Argument.symbols).flatMap identifiers := by
  obtain ⟨kind, opening, arguments⟩ := call
  show (ofCall ⟨kind, opening, arguments⟩).Gives f names ↔ f.kind = kind ∧ Arguments (arguments.map Argument.symbols) f ∧
    names = (arguments.map Argument.symbols).flatMap identifiers
  constructor
  · intro h
    cases kind with
    | average | least | greatest =>
        obtain ⟨hne, hsymbols, rfl⟩ := ofMetrics_gives_iff.mp h
        rw [hsymbols, flatMap_identifiers_metrics]
        exact ⟨rfl, by constructor; exact hne, rfl⟩
    | weightedSum =>
        obtain ⟨weights, hne, hparts, hdistinct, rfl, rfl⟩ := (ofWeights_gives_iff hlexed).mp h
        exact ⟨rfl, .weightedSum hne hparts hdistinct, (flatMap_identifiers_weights hparts).symm⟩
    | threshold =>
        obtain ⟨name, text, bound, hsymbols, hspells, rfl, rfl⟩ := (ofThreshold_gives_iff hlexed).mp h
        rw [hsymbols]
        exact ⟨rfl, .threshold hspells, rfl⟩
  · rintro ⟨hkind, harguments, rfl⟩
    generalize hparts : arguments.map Argument.symbols = ps at harguments
    cases harguments with
    | average hne | least hne | greatest hne =>
        cases hkind
        rw [flatMap_identifiers_metrics]
        exact ofMetrics_gives_iff.mpr ⟨hne, hparts, rfl⟩
    | weightedSum hne hpairs hdistinct =>
        cases hkind
        refine (ofWeights_gives_iff hlexed).mpr ⟨_, hne, ?_, hdistinct, rfl, flatMap_identifiers_weights hpairs⟩
        exact hparts ▸ hpairs
    | threshold hspells =>
        cases hkind
        exact (ofThreshold_gives_iff hlexed).mpr ⟨_, _, _, hparts, hspells, rfl, rfl⟩

end Reading

/-! ### Texts -/

theorem unknownMetrics_eq_nil_iff {known : Metric.Registry} {reported : List String} {references : List Reference} :
    unknownMetrics known reported references = [] ↔
      ∀ name ∈ references.map (·.name), known.names.contains name = true ∨ name ∈ reported := by
  induction references with
  | nil => simp [unknownMetrics]
  | cons r rs ih =>
      rw [unknownMetrics, List.map_cons, List.forall_mem_cons, ← ih]
      by_cases h : (known.names.contains r.name || decide (r.name ∈ reported)) = true
      · rw [if_pos h]
        rw [Bool.or_eq_true, decide_eq_true_iff] at h
        exact ⟨fun hrest => ⟨h, hrest⟩, And.right⟩
      · rw [if_neg h]
        rw [Bool.or_eq_true, decide_eq_true_iff] at h
        simp [h]

theorem compileCall_eq_ok_iff {known : Metric.Registry} {call : Call} {c : Compiled} :
    compileCall known call = .ok c ↔
      ∃ names, (Reading.ofCall call).Gives c.formula names ∧ (∀ name ∈ names, known.names.contains name = true) ∧
        c.references = NameSet.ofList names := by
  obtain ⟨f, references⟩ := c
  unfold compileCall
  constructor
  · intro h
    dsimp only at h
    split at h
    · rename_i f' hformula hfaults
      obtain ⟨hfaults, hknown⟩ := List.append_eq_nil_iff.mp hfaults
      obtain ⟨rfl, rfl⟩ := Compiled.mk.inj (Except.ok.inj h)
      refine ⟨_, ⟨hformula, hfaults, rfl⟩, fun name hname => ?_, rfl⟩
      exact (unknownMetrics_eq_nil_iff.mp hknown name hname).resolve_right List.not_mem_nil
    · cases h
  · rintro ⟨names, ⟨hformula, hfaults, hnames⟩, hknown, hreferences⟩
    have hunknown : unknownMetrics known [] (Reading.ofCall call).references = [] := by
      refine unknownMetrics_eq_nil_iff.mpr fun name hname => ?_
      exact .inl (hknown name (hnames ▸ hname))
    change references = NameSet.ofList names at hreferences
    subst hreferences
    simp only [hformula, hfaults, hunknown, List.append_nil, hnames]

/-- The arguments of a call made of tokens are lexed if the tokens are. -/
theorem lexed_of_mem_argumentsOf {inner : List Token} {closing : Position} (h : Lexed (inner.map (·.symbol)))
    {a : Argument} (ha : a ∈ argumentsOf inner closing) : Lexed a.symbols := by
  intro name hname
  have hpart : a.symbols ∈ parts (inner.map (·.symbol)) := by
    rw [← map_symbols_argumentsOf inner closing]
    exact List.mem_map_of_mem ha
  have hmem : name ∈ identifiers (inner.map (·.symbol)) := by
    rw [← identifiers_parts]
    exact List.mem_flatMap.mpr ⟨_, hpart, List.mem_filterMap.mpr ⟨_, hname, rfl⟩⟩
  obtain ⟨s, hs, hs'⟩ := List.mem_filterMap.mp hmem
  cases s with
  | identifier name' =>
      cases hs'
      exact h name hs
  | _ => cases hs'

/-- A call compiles if its symbols have the shape of a formula of its kind, and all metrics are known. -/
theorem compileCall_argumentsOf_eq_ok_iff {known : Metric.Registry} {kind : Formula.Kind} {opening closing : Position}
    {inner : List Token} {c : Compiled} (hlexed : Lexed (inner.map (·.symbol))) :
    compileCall known ⟨kind, opening, argumentsOf inner closing⟩ = .ok c ↔
      c.formula.kind = kind ∧ Arguments (parts (inner.map (·.symbol))) c.formula ∧
        (∀ name ∈ identifiers (inner.map (·.symbol)), known.names.contains name = true) ∧
          c.references = NameSet.ofList (identifiers (inner.map (·.symbol))) := by
  have hgives (names : List String) : (Reading.ofCall ⟨kind, opening, argumentsOf inner closing⟩).Gives c.formula names ↔
      c.formula.kind = kind ∧ Arguments (parts (inner.map (·.symbol))) c.formula ∧
        names = identifiers (inner.map (·.symbol)) := by
    rw [Reading.ofCall_gives_iff fun a => lexed_of_mem_argumentsOf hlexed, map_symbols_argumentsOf, identifiers_parts]
  rw [compileCall_eq_ok_iff]
  constructor
  · rintro ⟨names, hreading, hknown, hreferences⟩
    obtain ⟨hkind, hshape, rfl⟩ := (hgives names).mp hreading
    exact ⟨hkind, hshape, hknown, hreferences⟩
  · rintro ⟨hkind, hshape, hknown, hreferences⟩
    exact ⟨_, (hgives _).mpr ⟨hkind, hshape, rfl⟩, hknown, hreferences⟩

/-- The tokens of a text compile if their symbols derive. -/
theorem compileTokens_eq_ok_iff {known : Metric.Registry} {ts : List Token} {c : Compiled}
    (hlexed : Lexed (ts.map (·.symbol))) :
    compileTokens known ts = .ok c ↔ Derives known (ts.map (·.symbol)) c := by
  obtain ⟨f, references⟩ := c
  cases ts with
  | nil =>
      constructor
      · intro h
        cases h
      · intro h
        cases h
  | cons head rest =>
      constructor
      · intro h
        cases hcall : Call.ofTokens head rest with
        | error fault => simp [compileTokens, hcall] at h
        | ok call =>
            obtain ⟨kind, opening, arguments⟩ := call
            simp only [compileTokens, hcall] at h
            obtain ⟨inner, closing, hkind, rfl, hinner, rfl⟩ := Call.ofTokens_eq_ok_iff.mp hcall
            obtain ⟨word, hhead, hword⟩ := kindOf_eq_ok_iff.mp hkind
            have hlexed' : Lexed (inner.map (·.symbol)) := hlexed.mono fun s hs => by simp [hs]
            obtain ⟨rfl, hshape, hknown, rfl⟩ := (compileCall_argumentsOf_eq_ok_iff hlexed').mp h
            have hkeyword : word = f.kind.keyword :=
              (ofKeyword?_eq_some_iff (hlexed word (hhead ▸ List.mem_cons_self))).mp hword
            rw [List.map_cons, hhead, hkeyword, List.map_cons, List.map_append]
            exact .call (List.forall_mem_map.mpr hinner) hshape hknown
      · intro h
        generalize hsymbols : (head :: rest).map (·.symbol) = ss at h
        cases h with
        | call hinner hshape hknown =>
            obtain ⟨hhead, hrest⟩ := List.cons.inj hsymbols
            obtain ⟨⟨_, opening⟩, body, rfl, rfl, hbody⟩ := List.map_eq_cons_iff.mp hrest
            obtain ⟨inner, ending, rfl, rfl, hending⟩ := List.map_eq_append_iff.mp hbody
            obtain ⟨⟨_, closing⟩, rfl, rfl⟩ := List.map_eq_singleton_iff.mp hending
            have hlexed' : Lexed (inner.map (·.symbol)) := hlexed.mono fun s hs => by simp [hs]
            have hkind : kindOf head = .ok f.kind :=
              kindOf_eq_ok_iff.mpr ⟨_, hhead, Formula.Kind.ofKeyword?_keyword f.kind⟩
            have hcall : Call.ofTokens head (⟨.openParen, opening⟩ :: (inner ++ [⟨.closeParen, closing⟩])) =
                .ok ⟨f.kind, opening, argumentsOf inner closing⟩ :=
              Call.ofTokens_eq_ok_iff.mpr ⟨inner, closing, hkind, rfl, List.forall_mem_map.mp hinner, rfl⟩
            simp only [compileTokens, hcall]
            exact (compileCall_argumentsOf_eq_ok_iff hlexed').mpr ⟨rfl, hshape, hknown, rfl⟩

/-- A formula reads the metrics that its arguments name. -/
theorem Arguments.ofList_identifiers {ps : List (List Symbol)} {f : Formula} (h : Arguments ps f) :
    NameSet.ofList (ps.flatMap identifiers) = f.metrics := by
  cases h with
  | average _ | least _ | greatest _ => rw [flatMap_identifiers_metrics]; rfl
  | threshold _ => rfl
  | weightedSum _ hweights _ =>
      rw [flatMap_identifiers_weights hweights]
      refine NameSet.ofList_congr fun name => ?_
      rw [← Table.contains_iff_mem_keys, Table.contains_ofList]

theorem Derives.references_eq {known : Metric.Registry} {ss : List Symbol} {c : Compiled} (h : Derives known ss c) :
    c.references = c.formula.metrics := by
  cases h with
  | call hinner hshape hknown => rw [← hshape.ofList_identifiers, identifiers_parts]

theorem lexed_tokens (text : String) : Lexed ((tokens text).map (·.symbol)) := by
  intro name hname
  rw [map_symbol_tokens] at hname
  exact isIdentifier_of_mem_symbols hname

theorem compile_of_tokens_eq_nil {text : String} (h : tokens text = []) (known : Metric.Registry) :
    compile known text = .error [⟨.emptyExpression, .start⟩] :=
  if_pos (isEmpty_trim_iff.mpr (tokens_eq_nil_iff.mp h))

/-- A text that has tokens is not taken for blank. -/
theorem compile_of_tokens_ne_nil {text : String} (h : tokens text ≠ []) (known : Metric.Registry) :
    compile known text = compileTokens known (tokens text) :=
  if_neg fun hempty => h (tokens_eq_nil_iff.mpr (isEmpty_trim_iff.mp hempty))

theorem compile_eq_ok_iff_derives {known : Metric.Registry} {text : String} {c : Compiled} :
    compile known text = .ok c ↔ Derives known ((tokens text).map (·.symbol)) c := by
  rw [← compileTokens_eq_ok_iff (lexed_tokens text)]
  by_cases htokens : tokens text = []
  · rw [compile_of_tokens_eq_nil htokens, htokens]
    exact iff_of_false (fun h => by cases h) fun h => by cases h
  · rw [compile_of_tokens_ne_nil htokens]

/-- A text compiles if and only if its symbols derive, and the metrics that it names are those that the
formula reads. -/
theorem compile_eq_ok_iff (known : Metric.Registry) (text : String) (c : Compiled) :
    compile known text = .ok c ↔
      Derives known ((tokens text).map (·.symbol)) c ∧ c.references = c.formula.metrics := by
  rw [compile_eq_ok_iff_derives]
  exact ⟨fun h => ⟨h, h.references_eq⟩, And.left⟩

end Scorecard.Expression
