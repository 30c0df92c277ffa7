import Scorecard.Proofs.Expression.Acceptance
import Scorecard.Proofs.Expression.Order

/-!
The faults that are found in a call. What an argument has wrong on its own is one fault at most, at a place of
the argument; a repeated weight is found beside it, and so are metrics that are not known. The faults of a call
are those of its arguments and its unknown metrics, in the order of their places.
-/
namespace Scorecard.Expression

/-- The faults of an outcome, none if there is a formula. -/
def faults : Outcome → List Fault
  | .ok _ => []
  | .error found => found

/-- By what programs tell faults apart, and where they stand. -/
def Fault.label (f : Fault) : Code × Position := (f.problem.code, f.position)

/-- The call that the tokens of a text form, if they form one. -/
def recognized? (text : String) : Option Call :=
  match tokens text with
  | [] => none
  | head :: rest => (Call.ofTokens head rest).toOption

theorem recognized?_eq_some_iff {text : String} {call : Call} :
    recognized? text = some call ↔
      ∃ head rest, tokens text = head :: rest ∧ Call.ofTokens head rest = .ok call := by
  unfold recognized?
  cases tokens text with
  | nil => simp
  | cons head rest =>
      cases h : Call.ofTokens head rest with
      | ok call' => simp [h, Except.toOption]
      | error fault => simp [h, Except.toOption]

theorem compile_of_recognized {text : String} {call : Call} (h : recognized? text = some call)
    (known : Metric.Registry) : compile known text = compileCall known call := by
  obtain ⟨head, rest, htokens, hcall⟩ := recognized?_eq_some_iff.mp h
  rw [compile_of_tokens_ne_nil (htokens ▸ List.cons_ne_nil head rest), htokens, compileTokens, hcall]

theorem lexed_of_recognized {text : String} {call : Call} (h : recognized? text = some call) :
    ∀ a ∈ call.arguments, Lexed a.symbols := by
  obtain ⟨head, rest, htokens, hcall⟩ := recognized?_eq_some_iff.mp h
  obtain ⟨inner, closing, -, rfl, -, harguments⟩ := Call.ofTokens_eq_ok_iff.mp hcall
  have hlexed := lexed_tokens text
  rw [htokens] at hlexed
  rw [harguments]
  exact fun a => lexed_of_mem_argumentsOf (hlexed.mono fun s hs => by simp [hs])

/-! ### Faults of arguments -/

/-- The fault is one of shape or of number. A repeated weight is not, it is a matter between two arguments. -/
def Fault.isShape (f : Fault) : Bool :=
  match f.problem with
  | .malformedNumber .. => true
  | .invalidArgument (.repeatedWeight _) => false
  | .invalidArgument _ => true
  | _ => false

/-- The fault is one of shape or of number, at a place of the argument. -/
structure Fault.IsOwn (a : Argument) (f : Fault) : Prop where
  shape : f.isShape = true
  place : f.position ∈ a.places

theorem Argument.position_mem_places {a : Argument} {t : Token} (h : t ∈ a.tokens) : t.position ∈ a.places :=
  List.mem_cons_of_mem _ (List.mem_map_of_mem h)

theorem isOwn_of_metric {a : Argument} {f : Fault} : a.metric = .error f → f.IsOwn a := by
  fun_cases Argument.metric a with
  | case2 name p htokens => rintro ⟨⟩
  | case1 htokens | case3 name p q rest htokens | case5 first rest hsingle hcolon hnext htokens =>
      rintro ⟨⟩
      exact ⟨rfl, List.mem_cons_self⟩
  | case4 name p next rest hcolon htokens =>
      rintro ⟨⟩
      exact ⟨rfl, Argument.position_mem_places (by simp [htokens])⟩

theorem finiteNumber_eq_error {slot : NumberSlot} {text : String} {p : Position} {f : Fault}
    (h : Argument.finiteNumber slot text p = .error f) : f = ⟨.malformedNumber slot text, p⟩ := by
  unfold Argument.finiteNumber at h
  split at h
  · split at h
    · cases h
    · exact (Except.error.inj h).symm
  · exact (Except.error.inj h).symm

theorem isOwn_of_number {slot : NumberSlot} {a : Argument} {f : Fault} : a.number slot = .error f → f.IsOwn a := by
  fun_cases Argument.number slot a with
  | case1 htokens | case4 first rest hnumber hidentifier htokens =>
      rintro ⟨⟩
      exact ⟨rfl, List.mem_cons_self⟩
  | case2 text p htokens | case3 text p htokens =>
      intro h
      rw [finiteNumber_eq_error h]
      have hmem : p ∈ a.places := Argument.position_mem_places (t := ⟨_, p⟩) (by rw [htokens]; exact List.mem_cons_self)
      exact ⟨rfl, hmem⟩

theorem isOwn_of_weight {a : Argument} {f : Fault} : (WeightReading.ofArgument a).fault? = some f → f.IsOwn a := by
  fun_cases WeightReading.ofArgument a with
  | case1 htokens | case4 name p htokens | case5 first rest hcolon hnext hsingle htokens =>
      rintro ⟨⟩
      exact ⟨rfl, List.mem_cons_self⟩
  | case3 name p next rest hcolon htokens =>
      rintro ⟨⟩
      exact ⟨rfl, Argument.position_mem_places (by simp [htokens])⟩
  | case2 name p q weight htokens =>
      cases hnumber : (Argument.ofTokens weight q).number (.weight name) with
      | ok x => rintro ⟨⟩
      | error fault =>
          rintro ⟨⟩
          obtain ⟨hshape, hplace⟩ := isOwn_of_number hnumber
          have hmem := Argument.places_ofTokens weight q hplace
          refine ⟨hshape, List.mem_cons_of_mem _ ?_⟩
          rw [htokens]
          grind

/-- An argument is a weight if it reads as a pair whose number is well-formed. -/
theorem isWeight_iff_ofArgument {a : Argument} (ha : Lexed a.symbols) {entry : String × Float} :
    IsWeight a.symbols entry ↔ ∃ p, WeightReading.ofArgument a = .pair ⟨entry.1, p⟩ (.ok entry.2) := by
  simp only [ofArgument_eq_pair_iff ha]
  constructor
  · rintro ⟨text, hsymbols, hspells⟩
    obtain ⟨t, ts, htokens, ht, hts⟩ := List.map_eq_cons_iff.mp hsymbols
    obtain ⟨u, us, rfl, hu, hus⟩ := List.map_eq_cons_iff.mp hts
    obtain ⟨v, rfl, hv⟩ := List.map_eq_singleton_iff.mp hus
    refine ⟨t.position, u.position, text, v.position, ?_, hspells⟩
    rw [htokens, ← ht, ← hu, ← hv]
  · rintro ⟨p, q, text, r, htokens, hspells⟩
    refine ⟨text, ?_, hspells⟩
    rw [Argument.symbols, htokens]
    rfl

/-- The argument's own fault, if it does not have the shape that the keyword gives arguments. -/
def Argument.fault? (kind : Formula.Kind) (a : Argument) : Option Fault :=
  match kind with
  | .weightedSum => (WeightReading.ofArgument a).fault?
  | _ => Expression.fault? a.metric

theorem isOwn_of_fault? {kind : Formula.Kind} {a : Argument} {f : Fault} (h : a.fault? kind = some f) : f.IsOwn a := by
  have hmetric (h : Expression.fault? a.metric = some f) : f.IsOwn a := by
    cases hread : a.metric with
    | ok r =>
        rw [hread] at h
        cases h
    | error fault =>
        rw [hread] at h
        cases h
        exact isOwn_of_metric hread
  cases kind with
  | weightedSum => exact isOwn_of_weight h
  | average | least | greatest | threshold => exact hmetric h

/-! ### Metrics -/

/-- The metric that an argument is, if it is a single identifier. -/
def Argument.single? (a : Argument) : Option Reference :=
  match a.tokens with
  | [⟨.identifier name, p⟩] => some ⟨name, p⟩
  | _ => none

/-- The metric that an argument starts with. -/
def Argument.leading? (a : Argument) : Option Reference :=
  match a.tokens with
  | ⟨.identifier name, p⟩ :: _ => some ⟨name, p⟩
  | _ => none

/-- The metrics that a call names, where it names them. -/
def Call.extracted (call : Call) : List Reference :=
  match call.kind with
  | .average | .least | .greatest => call.arguments.filterMap Argument.single?
  | .weightedSum => call.arguments.filterMap Argument.leading?
  | .threshold => (call.arguments.take 1).filterMap Argument.single?

theorem read?_metric (a : Argument) : read? a.metric = a.single? := by
  unfold Argument.single?
  fun_cases Argument.metric a with
  | case1 htokens | case2 name p htokens | case3 name p q rest htokens | case4 name p next rest hcolon htokens =>
      rw [htokens]
      rfl
  | case5 first rest hsingle hcolon hnext htokens =>
      rw [htokens]
      split
      · next name p heq => exact absurd (List.cons.inj heq).2 (hsingle name p (List.cons.inj heq).1)
      · rfl

theorem reference?_ofArgument (a : Argument) : (WeightReading.ofArgument a).reference? = a.leading? := by
  unfold Argument.leading?
  fun_cases WeightReading.ofArgument a with
  | case1 htokens | case2 name p q weight htokens | case3 name p next rest hcolon htokens | case4 name p htokens =>
      rw [htokens]
      rfl
  | case5 first rest hcolon hnext hsingle htokens =>
      rw [htokens]
      split
      · next name p ts heq =>
          obtain ⟨hfirst, hrest⟩ := List.cons.inj heq
          cases ts with
          | nil => exact absurd hrest (hsingle name p hfirst)
          | cons next ts => exact absurd hrest (hnext name p next ts hfirst)
      · rfl

theorem Argument.tokens_of_single? {a : Argument} {r : Reference} (h : a.single? = some r) :
    a.tokens = [⟨.identifier r.name, r.position⟩] := by
  unfold single? at h
  split at h
  · next name p htokens =>
      cases h
      exact htokens
  · cases h

theorem Argument.tokens_of_leading? {a : Argument} {r : Reference} (h : a.leading? = some r) :
    ∃ ts, a.tokens = ⟨.identifier r.name, r.position⟩ :: ts := by
  unfold leading? at h
  split at h
  · next name p ts htokens =>
      cases h
      exact ⟨ts, htokens⟩
  · cases h

theorem Argument.position_mem_places_of_leading? {a : Argument} {r : Reference} (h : a.leading? = some r) :
    r.position ∈ a.places := by
  obtain ⟨ts, htokens⟩ := tokens_of_leading? h
  exact Argument.position_mem_places (t := ⟨.identifier r.name, r.position⟩) (htokens ▸ List.mem_cons_self)

theorem Argument.leading?_of_single? {a : Argument} {r : Reference} (h : a.single? = some r) : a.leading? = some r := by
  rw [leading?, tokens_of_single? h]

/-- A metric that a call names has its place in one of the arguments. -/
theorem Call.mem_places_of_mem_extracted {call : Call} {r : Reference} (h : r ∈ call.extracted) :
    ∃ a ∈ call.arguments, r.position ∈ a.places := by
  have hsingle {as : List Argument} (h : r ∈ as.filterMap Argument.single?) : ∃ a ∈ as, r.position ∈ a.places := by
    obtain ⟨a, ha, hr⟩ := List.mem_filterMap.mp h
    exact ⟨a, ha, a.position_mem_places_of_leading? (a.leading?_of_single? hr)⟩
  unfold extracted at h
  cases hkind : call.kind with
  | average | least | greatest =>
      rw [hkind] at h
      exact hsingle h
  | weightedSum =>
      rw [hkind] at h
      obtain ⟨a, ha, hr⟩ := List.mem_filterMap.mp h
      exact ⟨a, ha, a.position_mem_places_of_leading? hr⟩
  | threshold =>
      rw [hkind] at h
      obtain ⟨a, ha, hplace⟩ := hsingle h
      exact ⟨a, List.mem_of_mem_take ha, hplace⟩

/-! ### Repeated weights -/

theorem mem_repeatedWeights_cons_iff {weighted : List String} {r : WeightReading} {rs : List WeightReading}
    {f : Fault} :
    f ∈ repeatedWeights weighted (r :: rs) ↔
      (∃ metric weight, r = .pair metric weight ∧ metric.name ∈ weighted ∧
        f = invalid (.repeatedWeight metric.name) metric.position) ∨
        f ∈ repeatedWeights ((r.weight?.map (·.1)).toList ++ weighted) rs := by
  rw [repeatedWeights_cons, List.mem_append]
  refine or_congr_left ?_
  cases r with
  | malformed metric fault => simp [WeightReading.metric?]
  | pair metric weight =>
      dsimp only [WeightReading.metric?]
      rw [Option.filter_some]
      by_cases hmem : metric.name ∈ weighted <;> simp [hmem, Reference.repetition]

/-- A weight is found to be repeated at a pair whose metric has had a well-formed weight before. -/
theorem mem_repeatedWeights_iff {weighted : List String} {readings : List WeightReading} {f : Fault} :
    f ∈ repeatedWeights weighted readings ↔
      ∃ before metric weight after, readings = before ++ .pair metric weight :: after ∧
        f = invalid (.repeatedWeight metric.name) metric.position ∧
          (metric.name ∈ weighted ∨ ∃ r ∈ before, ∃ x, r.weight? = some (metric.name, x)) := by
  induction readings generalizing weighted with
  | nil => simp [repeatedWeights]
  | cons r rs ih =>
      rw [mem_repeatedWeights_cons_iff, ih]
      constructor
      · rintro (⟨metric, weight, rfl, hmem, rfl⟩ | ⟨before, metric, weight, after, rfl, rfl, hseen⟩)
        · exact ⟨[], metric, weight, rs, rfl, rfl, .inl hmem⟩
        · refine ⟨r :: before, metric, weight, after, rfl, rfl, ?_⟩
          simpa [or_assoc, or_comm, or_left_comm] using hseen
      · rintro ⟨before, metric, weight, after, hsplit, rfl, hseen⟩
        cases before with
        | nil =>
            obtain ⟨rfl, rfl⟩ := List.cons.inj hsplit
            refine .inl ⟨metric, weight, rfl, ?_, rfl⟩
            simpa using hseen
        | cons r' before =>
            obtain ⟨rfl, rfl⟩ := List.cons.inj hsplit
            refine .inr ⟨before, metric, weight, after, rfl, rfl, ?_⟩
            simpa [or_assoc, or_comm, or_left_comm] using hseen

/-! ### Calls -/

namespace Reading

variable {opening : Position} {arguments : List Argument}

theorem ofMetrics_faults {kind : Formula.Kind} {build : List String → Formula} (h : arguments ≠ []) :
    (ofMetrics kind build opening arguments).faults = arguments.filterMap fun a => fault? a.metric := by
  rw [ofMetrics, if_neg (by simpa using h)]
  exact List.filterMap_map

theorem ofMetrics_references {kind : Formula.Kind} {build : List String → Formula} :
    (ofMetrics kind build opening arguments).references = arguments.filterMap Argument.single? := by
  unfold ofMetrics
  split
  · next h => rw [List.isEmpty_iff.mp h, List.filterMap_nil]
  · rw [← funext read?_metric]
    exact List.filterMap_map

theorem ofWeights_faults (h : arguments ≠ []) :
    (ofWeights opening arguments).faults =
      (arguments.filterMap fun a => (WeightReading.ofArgument a).fault?) ++
        repeatedWeights [] (arguments.map WeightReading.ofArgument) := by
  rw [ofWeights, if_neg (by simpa using h)]
  exact congrArg (· ++ _) List.filterMap_map

theorem ofWeights_references : (ofWeights opening arguments).references = arguments.filterMap Argument.leading? := by
  unfold ofWeights
  split
  · next h => rw [List.isEmpty_iff.mp h, List.filterMap_nil]
  · rw [← funext reference?_ofArgument]
    exact List.filterMap_map

theorem ofThreshold_references :
    (ofThreshold opening arguments).references = (arguments.take 1).filterMap Argument.single? := by
  cases arguments with
  | nil => rfl
  | cons a as =>
      show (read? a.metric).toList = [a].filterMap Argument.single?
      rw [read?_metric, List.filterMap_cons]
      cases a.single? <;> rfl

theorem ofCall_references (call : Call) : (ofCall call).references = call.extracted := by
  unfold ofCall Call.extracted
  cases call.kind with
  | average | least | greatest => exact ofMetrics_references
  | weightedSum => exact ofWeights_references
  | threshold => exact ofThreshold_references

/-- Only the number of arguments can be wrong where no argument is. -/
theorem ofThreshold_faults :
    (ofThreshold opening arguments).faults =
      (if arguments.length = 2 then [] else [invalid (.wrongCount arguments.length) opening]) ++
        ((arguments[0]?.bind fun a => fault? a.metric).toList ++
          (arguments[1]?.bind fun a => fault? (a.number .threshold)).toList) := by
  simp [ofThreshold, Option.bind_map]

/-- Apart from repeated weights, the faults of a list of arguments are those of the arguments. -/
theorem ofCall_faults {call : Call} (hkind : call.kind ≠ .threshold) (hne : call.arguments ≠ []) :
    ∃ repeated : List Fault, (∀ f ∈ repeated, f.isShape = false) ∧
      (ofCall call).faults = call.arguments.filterMap (Argument.fault? call.kind) ++ repeated := by
  obtain ⟨kind, opening, arguments⟩ := call
  cases kind with
  | threshold => exact absurd rfl hkind
  | average | least | greatest =>
      refine ⟨[], List.forall_mem_nil _, ?_⟩
      rw [List.append_nil]
      exact ofMetrics_faults hne
  | weightedSum =>
      refine ⟨_, fun f hf => ?_, ofWeights_faults hne⟩
      obtain ⟨before, metric, weight, after, -, rfl, -⟩ := mem_repeatedWeights_iff.mp hf
      rfl

end Reading

/-- The fault is one of the arguments of the call, or of their number. -/
structure Fault.IsAbout (call : Call) (f : Fault) : Prop where
  code : f.problem.code = .malformedNumber ∨ f.problem.code = .invalidArgument
  place : f.position = call.opening ∨ ∃ a ∈ call.arguments, f.position ∈ a.places

theorem Fault.IsOwn.isAbout {call : Call} {a : Argument} {f : Fault} (h : f.IsOwn a) (ha : a ∈ call.arguments) :
    f.IsAbout call := by
  refine ⟨?_, .inr ⟨a, ha, h.place⟩⟩
  have hshape := h.shape
  unfold isShape at hshape
  unfold Problem.code
  cases hproblem : f.problem with
  | malformedNumber => exact .inl rfl
  | invalidArgument => exact .inr rfl
  | emptyExpression | unrecognized | unknownMetric | unavailable =>
      rw [hproblem] at hshape
      cases hshape

theorem isAbout_of_mem_filterMap_fault? {call : Call} {f : Fault}
    (h : f ∈ call.arguments.filterMap (Argument.fault? call.kind)) : f.IsAbout call := by
  obtain ⟨a, ha, hf⟩ := List.mem_filterMap.mp h
  exact (isOwn_of_fault? hf).isAbout ha

theorem isAbout_invalid (call : Call) (e : ArgumentError) : (invalid e call.opening).IsAbout call :=
  ⟨.inr rfl, .inl rfl⟩

theorem leading?_of_ofArgument {a : Argument} {metric : Reference} {weight : Except Fault Float}
    (h : WeightReading.ofArgument a = .pair metric weight) : a.leading? = some metric := by
  rw [← reference?_ofArgument, h]
  rfl

theorem isAbout_of_mem_faults {call : Call} {f : Fault} (h : f ∈ (Reading.ofCall call).faults) : f.IsAbout call := by
  obtain ⟨kind, opening, arguments⟩ := call
  cases kind with
  | average | least | greatest =>
      by_cases hne : arguments = []
      · subst hne
        rw [List.mem_singleton.mp h]
        exact isAbout_invalid _ _
      · change f ∈ (Reading.ofMetrics _ _ opening arguments).faults at h
        rw [Reading.ofMetrics_faults hne] at h
        exact isAbout_of_mem_filterMap_fault? h
  | weightedSum =>
      by_cases hne : arguments = []
      · subst hne
        rw [List.mem_singleton.mp h]
        exact isAbout_invalid _ _
      · change f ∈ (Reading.ofWeights opening arguments).faults at h
        rw [Reading.ofWeights_faults hne, List.mem_append] at h
        rcases h with h | h
        · exact isAbout_of_mem_filterMap_fault? h
        · obtain ⟨before, metric, weight, after, hsplit, rfl, -⟩ := mem_repeatedWeights_iff.mp h
          have hmem : WeightReading.pair metric weight ∈ arguments.map WeightReading.ofArgument := by
            rw [hsplit]
            exact List.mem_append_right _ List.mem_cons_self
          obtain ⟨a, ha, hread⟩ := List.mem_map.mp hmem
          exact ⟨.inr rfl, .inr ⟨a, ha, a.position_mem_places_of_leading? (leading?_of_ofArgument hread)⟩⟩
  | threshold =>
      change f ∈ (Reading.ofThreshold opening arguments).faults at h
      rw [Reading.ofThreshold_faults, List.mem_append, List.mem_append] at h
      rcases h with h | h | h
      · split at h
        · cases h
        · rw [List.mem_singleton.mp h]
          exact isAbout_invalid _ _
      · obtain ⟨a, ha, hf⟩ := Option.bind_eq_some_iff.mp (Option.mem_toList.mp h)
        have hfault : a.fault? .threshold = some f := hf
        exact (isOwn_of_fault? hfault).isAbout (List.mem_of_getElem? ha)
      · obtain ⟨a, ha, hf⟩ := Option.bind_eq_some_iff.mp (Option.mem_toList.mp h)
        cases hnumber : a.number .threshold with
        | ok x =>
            rw [hnumber] at hf
            cases hf
        | error fault =>
            rw [hnumber] at hf
            cases hf
            exact (isOwn_of_number hnumber).isAbout (List.mem_of_getElem? ha)

/-- The faults of a call are those of its reading and its unknown metrics, put in order. -/
theorem faults_compileCall (known : Metric.Registry) (call : Call) :
    faults (compileCall known call) =
      inOrder ((Reading.ofCall call).faults ++ unknownMetrics known [] call.extracted) := by
  rw [← Reading.ofCall_references]
  unfold compileCall
  dsimp only
  split
  · next f hformula hfaults =>
      rw [hfaults]
      exact List.mergeSort_nil.symm
  · rfl

theorem perm_faults_compileCall (known : Metric.Registry) (call : Call) :
    (faults (compileCall known call)).Perm
      ((Reading.ofCall call).faults ++ unknownMetrics known [] call.extracted) := by
  rw [faults_compileCall]
  exact perm_inOrder _

/-! ### Unknown metrics -/

theorem mem_unknownMetrics {known : Metric.Registry} {reported : List String} {references : List Reference} {f : Fault}
    (h : f ∈ unknownMetrics known reported references) :
    ∃ r ∈ references, f = ⟨.unknownMetric r.name known.toList, r.position⟩ := by
  induction references generalizing reported with
  | nil => cases h
  | cons r rs ih =>
      rw [unknownMetrics] at h
      split at h
      · obtain ⟨r', hr', rfl⟩ := ih h
        exact ⟨r', List.mem_cons_of_mem _ hr', rfl⟩
      · rcases List.mem_cons.mp h with rfl | h
        · exact ⟨r, List.mem_cons_self, rfl⟩
        · obtain ⟨r', hr', rfl⟩ := ih h
          exact ⟨r', List.mem_cons_of_mem _ hr', rfl⟩

end Scorecard.Expression
