import Scorecard.Proofs.Expression.Faults

/-!
Which repeated weights are reported. A metric that is weighted again is found to be if it has had a well-formed
weight before; a weight that could not be read does not count. So all repetitions are reported exactly if, of
each metric that is weighted more than once, the first weight is well-formed.
-/
namespace Scorecard.Expression

/-- The metric of an argument that is a metric and a colon, whatever follows them. -/
def Argument.weighted? (a : Argument) : Option Reference :=
  match a.tokens with
  | ⟨.identifier name, p⟩ :: ⟨.colon, _⟩ :: _ => some ⟨name, p⟩
  | _ => none

/-- The argument is the metric of this name and a colon, whatever follows them. -/
def Argument.Weights (a : Argument) (name : String) : Prop := a.weighted?.map (·.name) = some name

instance (a : Argument) (name : String) : Decidable (a.Weights name) :=
  inferInstanceAs (Decidable (a.weighted?.map (·.name) = some name))

theorem Argument.weights_iff_exists {a : Argument} {name : String} :
    a.Weights name ↔ ∃ p, a.weighted? = some ⟨name, p⟩ := by
  unfold Weights
  rw [Option.map_eq_some_iff]
  constructor
  · rintro ⟨⟨_, p⟩, h, rfl⟩
    exact ⟨p, h⟩
  · rintro ⟨p, h⟩
    exact ⟨⟨name, p⟩, h, rfl⟩

/-! ### Readings -/

theorem metric?_ofArgument (a : Argument) : (WeightReading.ofArgument a).metric? = a.weighted? := by
  unfold Argument.weighted?
  fun_cases WeightReading.ofArgument a with
  | case1 htokens => rw [htokens]; rfl
  | case2 name p q weight htokens => rw [htokens]; rfl
  | case3 name p next rest hcolon htokens =>
      rw [htokens]
      split
      · next heq =>
          obtain ⟨-, hnext⟩ := List.cons.inj heq
          exact absurd (List.cons.inj hnext).1 (hcolon _)
      · rfl
  | case4 name p htokens => rw [htokens]; rfl
  | case5 first rest hcolon hnext hsingle htokens =>
      rw [htokens]
      split
      · next heq =>
          obtain ⟨hfirst, hrest⟩ := List.cons.inj heq
          exact absurd hrest (hcolon _ _ _ _ hfirst)
      · rfl

theorem weighted?_of_ofArgument {a : Argument} {r : Reference} {weight : Except Fault Float}
    (h : WeightReading.ofArgument a = .pair r weight) : a.weighted? = some r := by
  rw [← metric?_ofArgument, h]
  rfl

/-- A weight counts if it is well-formed. -/
theorem weight?_ofArgument_eq_some_iff {a : Argument} (ha : Lexed a.symbols) {entry : String × Float} :
    (WeightReading.ofArgument a).weight? = some entry ↔ IsWeight a.symbols entry := by
  rw [isWeight_iff_ofArgument ha]
  cases WeightReading.ofArgument a with
  | malformed metric fault => simp [WeightReading.weight?]
  | pair metric weight =>
      cases weight with
      | error fault => simp [WeightReading.weight?]
      | ok x =>
          obtain ⟨name, p⟩ := metric
          obtain ⟨name', y⟩ := entry
          simp [WeightReading.weight?]

theorem weights_of_weight? (a : Argument) (name : String)
    (h : (WeightReading.ofArgument a).weight?.map (·.1) = some name) : a.Weights name := by
  obtain ⟨⟨name, x⟩, hweight, rfl⟩ := Option.map_eq_some_iff.mp h
  cases hread : WeightReading.ofArgument a with
  | malformed metric fault =>
      rw [hread] at hweight
      cases hweight
  | pair metric weight =>
      rw [hread] at hweight
      cases weight with
      | error fault => cases hweight
      | ok y =>
          cases hweight
          exact Argument.weights_iff_exists.mpr ⟨metric.position, weighted?_of_ofArgument hread⟩

theorem IsWeight.weights {a : Argument} (ha : Lexed a.symbols) {entry : String × Float} (h : IsWeight a.symbols entry) :
    a.Weights entry.1 := by
  obtain ⟨p, hread⟩ := (isWeight_iff_ofArgument ha).mp h
  exact Argument.weights_iff_exists.mpr ⟨p, weighted?_of_ofArgument hread⟩

/-! ### Repetitions -/

/-- The metrics of arguments that are weighted again: an argument before has the name as well. `name?` is the
name that an argument counts for, and `before` are the arguments read so far. -/
def weightedAgain (name? : Argument → Option String) (before : List Argument) : List Argument → List Reference
  | [] => []
  | b :: after =>
    (b.weighted?.filter fun s => ∃ a ∈ before, name? a = some s.name).toList ++
      weightedAgain name? (before ++ [b]) after

/-- The metrics of a call that are weighted again, whatever follows the colons. -/
def Call.repetitions (call : Call) : List Reference :=
  weightedAgain (fun a => a.weighted?.map (·.name)) [] call.arguments

section

variable {name? wider? : Argument → Option String} {before : List Argument}

theorem exists_wider (h : ∀ a name, name? a = some name → wider? a = some name) {name : String}
    (hname : ∃ a ∈ before, name? a = some name) : ∃ a ∈ before, wider? a = some name := by
  obtain ⟨a, ha, hname⟩ := hname
  exact ⟨a, ha, h a name hname⟩

/-- Under narrower names fewer are weighted again. -/
theorem weightedAgain_sublist (h : ∀ a name, name? a = some name → wider? a = some name) (before as : List Argument) :
    (weightedAgain name? before as).Sublist (weightedAgain wider? before as) := by
  induction as generalizing before with
  | nil => exact .refl _
  | cons b as ih =>
      refine .append ?_ (ih _)
      cases b.weighted? with
      | none => exact .refl _
      | some s =>
          by_cases hname : ∃ a ∈ before, name? a = some s.name
          · simp [Option.filter_some, hname, exists_wider h hname]
          · simp [Option.filter_some, hname]

theorem weightedAgain_cons_eq_iff (h : ∀ a name, name? a = some name → wider? a = some name) {b : Argument}
    {as : List Argument} :
    weightedAgain name? before (b :: as) = weightedAgain wider? before (b :: as) ↔
      (∀ s, b.weighted? = some s → (∃ a ∈ before, wider? a = some s.name) → ∃ a ∈ before, name? a = some s.name) ∧
        weightedAgain name? (before ++ [b]) as = weightedAgain wider? (before ++ [b]) as := by
  rw [weightedAgain, weightedAgain]
  cases b.weighted? with
  | none => simp
  | some s =>
      by_cases hname : ∃ a ∈ before, name? a = some s.name
      · simp [Option.filter_some, hname, exists_wider h hname]
      · by_cases hwider : ∃ a ∈ before, wider? a = some s.name
        · -- What the narrower names miss here cannot be made up for later.
          have hlength := (weightedAgain_sublist h (before ++ [b]) as).length_le
          refine iff_of_false (fun heq => ?_) fun hand => hname (hand.1 s rfl hwider)
          have hlengths := congrArg List.length heq
          simp [Option.filter_some, hname, hwider] at hlengths
          omega
        · have hhead : ∀ t, some s = some t → (∃ a ∈ before, wider? a = some t.name) →
              ∃ a ∈ before, name? a = some t.name := by
            rintro _ ⟨⟩ hmem
            exact absurd hmem hwider
          rw [and_iff_right hhead]
          simp [Option.filter_some, hname, hwider]

/-- Nothing is missed for narrower names if each name that is there before is there before in the narrower sense. -/
theorem weightedAgain_eq_iff (h : ∀ a name, name? a = some name → wider? a = some name) {as : List Argument} :
    weightedAgain name? before as = weightedAgain wider? before as ↔
      ∀ front b back s, as = front ++ b :: back → b.weighted? = some s →
        (∃ a ∈ before ++ front, wider? a = some s.name) → ∃ a ∈ before ++ front, name? a = some s.name := by
  induction as generalizing before with
  | nil => simp [weightedAgain]
  | cons c as ih =>
      rw [weightedAgain_cons_eq_iff h, ih]
      constructor
      · rintro ⟨hhead, htail⟩ front b back s hsplit hs hwider
        cases front with
        | nil =>
            obtain ⟨rfl, rfl⟩ := List.cons.inj hsplit
            rw [List.append_nil] at hwider ⊢
            exact hhead s hs hwider
        | cons c' front =>
            obtain ⟨rfl, rfl⟩ := List.cons.inj hsplit
            rw [List.append_cons] at hwider ⊢
            exact htail front b back s rfl hs hwider
      · intro hall
        constructor
        · intro s hs hwider
          simpa using hall [] c as s rfl hs (by simpa using hwider)
        · rintro front b back s rfl hs hwider
          rw [← List.append_cons] at hwider ⊢
          exact hall (c :: front) b back s rfl hs hwider

end

/-! ### Reports -/

/-- The search for repeated weights counts an argument for its metric if its weight is well-formed. -/
theorem repeatedWeights_eq {weighted : List String} {before as : List Argument}
    (hweighted : ∀ name, name ∈ weighted ↔ ∃ a ∈ before, (WeightReading.ofArgument a).weight?.map (·.1) = some name) :
    repeatedWeights weighted (as.map WeightReading.ofArgument) =
      (weightedAgain (fun a => (WeightReading.ofArgument a).weight?.map (·.1)) before as).map Reference.repetition := by
  induction as generalizing weighted before with
  | nil => rfl
  | cons b as ih =>
      have hnext : ∀ name, name ∈ ((WeightReading.ofArgument b).weight?.map (·.1)).toList ++ weighted ↔
          ∃ a ∈ before ++ [b], (WeightReading.ofArgument a).weight?.map (·.1) = some name := by
        intro name
        rw [List.mem_append, hweighted, Option.mem_toList, or_comm]
        simp [or_and_right, exists_or]
      simp only [List.map_cons, repeatedWeights_cons, metric?_ofArgument, weightedAgain, List.map_append, ih hnext, hweighted]

/-- The fault is a repeated weight. -/
def Fault.isRepetition (f : Fault) : Bool :=
  match f.problem with
  | .invalidArgument (.repeatedWeight _) => true
  | _ => false

theorem not_isRepetition_of_isOwn {a : Argument} {f : Fault} (h : f.IsOwn a) : f.isRepetition = false := by
  have hshape := h.shape
  unfold Fault.isShape at hshape
  unfold Fault.isRepetition
  split
  · next heq => simp [heq] at hshape
  · rfl

/-- Repeated weights are found by the search for them, and by nothing else. -/
theorem filter_isRepetition_faults (known : Metric.Registry) {call : Call} (hkind : call.kind = .weightedSum) :
    ((faults (compileCall known call)).filter Fault.isRepetition).Perm
      (repeatedWeights [] (call.arguments.map WeightReading.ofArgument)) := by
  obtain ⟨kind, opening, arguments⟩ := call
  cases hkind
  have hunknown : (unknownMetrics known [] (Call.extracted ⟨.weightedSum, opening, arguments⟩)).filter
      Fault.isRepetition = [] := by
    rw [List.filter_eq_nil_iff]
    intro f hf
    obtain ⟨r, -, rfl⟩ := mem_unknownMetrics hf
    exact Bool.false_ne_true
  refine ((perm_faults_compileCall known _).filter _).trans (.of_eq ?_)
  rw [List.filter_append, hunknown, List.append_nil]
  show (Reading.ofWeights opening arguments).faults.filter _ = _
  by_cases hne : arguments = []
  · subst hne
    rfl
  · have hown : (arguments.filterMap fun a => (WeightReading.ofArgument a).fault?).filter Fault.isRepetition = [] := by
      rw [List.filter_eq_nil_iff]
      intro f hf
      obtain ⟨a, -, ha⟩ := List.mem_filterMap.mp hf
      rw [not_isRepetition_of_isOwn (isOwn_of_weight ha)]
      exact Bool.false_ne_true
    have hrepeated : (repeatedWeights [] (arguments.map WeightReading.ofArgument)).filter Fault.isRepetition =
        repeatedWeights [] (arguments.map WeightReading.ofArgument) := by
      rw [List.filter_eq_self]
      intro f hf
      obtain ⟨-, metric, -, -, -, rfl, -⟩ := mem_repeatedWeights_iff.mp hf
      rfl
    rw [Reading.ofWeights_faults hne, List.filter_append, hown, List.nil_append, hrepeated]

variable {text : String} {call : Call}

/-- Each metric and colon behind the same metric and a colon is reported as a repetition, in a fault of its own. -/
def RepetitionsReported (call : Call) (found : List Fault) : Prop :=
  (call.repetitions.map Reference.repetition).Subperm found

/-- All repetitions are among the faults if the search for repeated weights finds them all. -/
theorem repetitionsReported_iff_eq (known : Metric.Registry) (h : recognized? text = some call)
    (hkind : call.kind = .weightedSum) :
    RepetitionsReported call (faults (compile known text)) ↔
      weightedAgain (fun a => (WeightReading.ofArgument a).weight?.map (·.1)) [] call.arguments = call.repetitions := by
  rw [compile_of_recognized h]
  have hperm := filter_isRepetition_faults known hkind
  rw [@repeatedWeights_eq [] [] call.arguments (by simp)] at hperm
  constructor
  · intro hreported
    have hfilter : (call.repetitions.map Reference.repetition).filter Fault.isRepetition =
        call.repetitions.map Reference.repetition := by
      simp [List.filter_eq_self, Reference.repetition, invalid, Fault.isRepetition]
    have hlength := ((hreported.filter Fault.isRepetition).trans hperm.subperm).length_le
    rw [hfilter, List.length_map, List.length_map] at hlength
    exact (weightedAgain_sublist weights_of_weight? [] call.arguments).eq_of_length_le hlength
  · intro heq
    rw [heq] at hperm
    exact hperm.symm.subperm.trans List.filter_sublist.subperm

/-- Where a metric is weighted more than once, its first weight is well-formed. -/
def FirstWeightsSpelled (call : Call) : Prop :=
  ∀ before a after name, call.arguments = before ++ a :: after → a.Weights name → (∀ b ∈ before, ¬b.Weights name) →
    (∃ b ∈ after, b.Weights name) → ∃ x, IsWeight a.symbols (name, x)

theorem exists_first_weights {arguments : List Argument} {name : String} (h : ∃ a ∈ arguments, a.Weights name) :
    ∃ before a after, arguments = before ++ a :: after ∧ a.Weights name ∧ ∀ b ∈ before, ¬b.Weights name := by
  have hsome : (arguments.find? fun a => decide (a.Weights name)).isSome = true := by
    rw [List.find?_isSome]
    simpa using h
  obtain ⟨a, ha⟩ := Option.isSome_iff_exists.mp hsome
  obtain ⟨hfirst, before, after, hsplit, hbefore⟩ := List.find?_eq_some_iff_append.mp ha
  exact ⟨before, a, after, hsplit, by simpa using hfirst, by simpa using hbefore⟩

/-- All repetitions are among the faults if each metric that is weighted before has a well-formed weight before. -/
theorem repetitionsReported_iff_forall (known : Metric.Registry) (h : recognized? text = some call)
    (hkind : call.kind = .weightedSum) :
    RepetitionsReported call (faults (compile known text)) ↔
      ∀ front b back name, call.arguments = front ++ b :: back → b.Weights name →
        (∃ a ∈ front, a.Weights name) → ∃ a ∈ front, ∃ x, IsWeight a.symbols (name, x) := by
  rw [repetitionsReported_iff_eq known h hkind, Call.repetitions, weightedAgain_eq_iff weights_of_weight?]
  have hlexed := lexed_of_recognized h
  constructor
  · intro hall front b back name hsplit hb hfront
    obtain ⟨p, hp⟩ := Argument.weights_iff_exists.mp hb
    obtain ⟨a, ha, hweight⟩ := hall front b back ⟨name, p⟩ hsplit hp hfront
    obtain ⟨⟨name', x⟩, hx, rfl⟩ := Option.map_eq_some_iff.mp hweight
    exact ⟨a, ha, x, (weight?_ofArgument_eq_some_iff (hlexed a (hsplit ▸ List.mem_append_left _ ha))).mp hx⟩
  · intro hall front b back s hsplit hs hfront
    obtain ⟨a, ha, x, hx⟩ := hall front b back s.name hsplit (Argument.weights_iff_exists.mpr ⟨s.position, hs⟩) hfront
    refine ⟨a, ha, Option.map_eq_some_iff.mpr ⟨(s.name, x), ?_, rfl⟩⟩
    exact (weight?_ofArgument_eq_some_iff (hlexed a (hsplit ▸ List.mem_append_left _ ha))).mpr hx

/-- All repetitions of weights are reported exactly if no metric that is weighted more than once has a first
weight that is not well-formed. -/
theorem repetitionsReported_iff (known : Metric.Registry) (h : recognized? text = some call)
    (hkind : call.kind = .weightedSum) :
    RepetitionsReported call (faults (compile known text)) ↔ FirstWeightsSpelled call := by
  rw [repetitionsReported_iff_forall known h hkind]
  constructor
  · intro hall before a after name hsplit ha hbefore hafter
    -- The next argument with the metric can be reported for the sake of the first one only.
    obtain ⟨between, b, rest, rfl, hb, hbetween⟩ := exists_first_weights hafter
    have hsplit' : call.arguments = (before ++ a :: between) ++ b :: rest := by
      rw [hsplit, List.append_assoc, List.cons_append]
    obtain ⟨c, hc, x, hx⟩ := hall _ b rest name hsplit' hb ⟨a, by simp, ha⟩
    have hlexed : Lexed c.symbols := lexed_of_recognized h c (hsplit' ▸ List.mem_append_left _ hc)
    have hweights : c.Weights name := hx.weights hlexed
    rcases List.mem_append.mp hc with hc | hc
    · exact absurd hweights (hbefore c hc)
    · rcases List.mem_cons.mp hc with rfl | hc
      · exact ⟨x, hx⟩
      · exact absurd hweights (hbetween c hc)
  · intro hspelled front b back name hsplit hb hfront
    obtain ⟨before, c, after, rfl, hc, hbefore⟩ := exists_first_weights hfront
    have hfirst : call.arguments = before ++ c :: (after ++ b :: back) := by simp [hsplit]
    obtain ⟨x, hx⟩ := hspelled before c (after ++ b :: back) name hfirst hc hbefore ⟨b, by simp, hb⟩
    exact ⟨c, by simp, x, hx⟩

/-- A metric whose first weight is well-formed is reported at each repetition, well-formed or not. -/
theorem repetitionsReported_iff_of_malformed_repetition :
    let text := "WEIGHTED_SUM(rouge: 0.5, BLEU: 0.25, ROUGE:)"
    let call : Call := ⟨.weightedSum, ⟨1, 13⟩,
      [⟨[⟨.identifier "ROUGE", ⟨1, 14⟩⟩, ⟨.colon, ⟨1, 19⟩⟩, ⟨.number "0.5", ⟨1, 21⟩⟩], ⟨1, 14⟩⟩,
        ⟨[⟨.identifier "BLEU", ⟨1, 26⟩⟩, ⟨.colon, ⟨1, 30⟩⟩, ⟨.number "0.25", ⟨1, 32⟩⟩], ⟨1, 26⟩⟩,
        ⟨[⟨.identifier "ROUGE", ⟨1, 38⟩⟩, ⟨.colon, ⟨1, 43⟩⟩], ⟨1, 38⟩⟩]⟩
    recognized? text = some call ∧ call.kind = .weightedSum ∧
      (RepetitionsReported call (faults (compile .standard text)) ↔ FirstWeightsSpelled call) := by
  intro text call
  have hrecognized : recognized? text = some call := by decide +kernel
  exact ⟨hrecognized, rfl, repetitionsReported_iff .standard hrecognized rfl⟩

/-- A weight that is not well-formed hides that the metric is weighted again. -/
theorem not_repetitionsReported_of_malformed_first :
    let text := "WEIGHTED_SUM(ROUGE: x, ROUGE: 0.5)"
    let call : Call := ⟨.weightedSum, ⟨1, 13⟩,
      [⟨[⟨.identifier "ROUGE", ⟨1, 14⟩⟩, ⟨.colon, ⟨1, 19⟩⟩, ⟨.identifier "X", ⟨1, 21⟩⟩], ⟨1, 14⟩⟩,
        ⟨[⟨.identifier "ROUGE", ⟨1, 24⟩⟩, ⟨.colon, ⟨1, 29⟩⟩, ⟨.number "0.5", ⟨1, 31⟩⟩], ⟨1, 24⟩⟩]⟩
    recognized? text = some call ∧ call.kind = .weightedSum ∧
      ¬RepetitionsReported call (faults (compile .standard text)) := by
  intro text call
  have hrecognized : recognized? text = some call := by decide +kernel
  refine ⟨hrecognized, rfl, fun hreported => ?_⟩
  have hrepetitions : call.repetitions = [⟨"ROUGE", ⟨1, 24⟩⟩] := by decide +kernel
  have hfault : Reference.repetition ⟨"ROUGE", ⟨1, 24⟩⟩ ∈ faults (compile .standard text) := by
    apply hreported.subset
    rw [hrepetitions]
    exact List.mem_singleton_self _
  have hnone : repeatedWeights [] (call.arguments.map WeightReading.ofArgument) = [] := by decide +kernel
  have hfilter := @filter_isRepetition_faults .standard call rfl
  rw [hnone, List.perm_nil, List.filter_eq_nil_iff] at hfilter
  rw [compile_of_recognized hrecognized] at hfault
  exact hfilter _ hfault rfl

end Scorecard.Expression
