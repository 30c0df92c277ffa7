import Scorecard.Proofs.Expression.Faults

/-!
No argument of a call hides the fault of another. The faults of shape and of number of a call are those that its
arguments have as only arguments, of which each has one if it does not have the shape that the keyword asks for.
Metrics that are not known have one fault for each name, where the name is first used. The main statement is
`faults_nothingHidden`.
-/
namespace Scorecard.Expression

/-! ### Arguments -/

/-- The argument has the shape that the keyword gives arguments: a metric, or a metric with a weight. -/
def Argument.HasShape (kind : Formula.Kind) (a : Argument) : Prop :=
  match kind with
  | .weightedSum => ∃ entry, IsWeight a.symbols entry
  | _ => ∃ name, a.symbols = [.identifier name]

theorem isMetric_iff {a : Argument} : Expression.fault? a.metric = none ↔ ∃ name, a.symbols = [.identifier name] := by
  cases hread : a.metric with
  | ok r =>
      rw [Argument.metric_eq_ok_iff] at hread
      exact iff_of_true rfl ⟨r.name, by rw [Argument.symbols, hread, List.map_singleton]⟩
  | error fault =>
      refine iff_of_false (Option.some_ne_none fault) ?_
      rintro ⟨name, hsymbols⟩
      obtain ⟨t, htokens, ht⟩ := List.map_eq_singleton_iff.mp hsymbols
      have hok : a.metric = .ok ⟨name, t.position⟩ := Argument.metric_eq_ok_iff.mpr (by rw [htokens, ← ht])
      rw [hread] at hok
      cases hok

theorem isWeight_iff {a : Argument} (ha : Lexed a.symbols) :
    (WeightReading.ofArgument a).fault? = none ↔ ∃ entry, IsWeight a.symbols entry := by
  simp only [isWeight_iff_ofArgument ha]
  cases WeightReading.ofArgument a with
  | malformed metric fault => simp [WeightReading.fault?]
  | pair metric weight =>
      cases weight with
      | error fault => simp [WeightReading.fault?]
      | ok x => exact iff_of_true rfl ⟨(metric.name, x), metric.position, rfl⟩

/-- An argument has no fault of its own exactly if it has its shape. -/
theorem fault?_eq_none_iff {kind : Formula.Kind} {a : Argument} (ha : Lexed a.symbols) :
    a.fault? kind = none ↔ a.HasShape kind := by
  cases kind with
  | weightedSum => exact isWeight_iff ha
  | average | least | greatest | threshold => exact isMetric_iff

/-! ### Unknown metrics -/

/-- The fault is that the metric of this name is not known. -/
def Fault.names (name : String) (f : Fault) : Bool :=
  match f.problem with
  | .unknownMetric name' _ => name' == name
  | _ => false

/-- A name that is not known is reported where it is first used, and there only. -/
theorem filter_names_unknownMetrics (known : Metric.Registry) (name : String) (references : List Reference)
    (reported : List String) :
    (unknownMetrics known reported references).filter (Fault.names name) =
      if known.names.contains name = true ∨ name ∈ reported then []
      else ((references.find? fun r => r.name == name).map fun r =>
        ⟨.unknownMetric name known.toList, r.position⟩).toList := by
  induction references generalizing reported with
  | nil => simp [unknownMetrics]
  | cons r rs ih =>
      rw [unknownMetrics]
      by_cases hname : r.name = name
      · subst hname
        split
        · next h =>
            rw [ih, if_pos (by simpa using h), if_pos (by simpa using h)]
        · next h =>
            rw [List.filter_cons_of_pos (by simp [Fault.names]), ih, if_pos (.inr List.mem_cons_self),
              if_neg (by simpa using h)]
            simp
      · rw [List.find?_cons_of_neg (by simpa using hname)]
        split
        · exact ih reported
        · rw [List.filter_cons_of_neg (by simpa [Fault.names] using hname), ih]
          simp [Ne.symm hname]

/-! ### Nothing is hidden -/

/-- The faults of shape and of number that an argument has as the only argument of a call. -/
def Argument.ownFaults (kind : Formula.Kind) (a : Argument) : List Fault :=
  (faults (compileCall .standard ⟨kind, .start, [a]⟩)).filter Fault.isShape

theorem names_eq_false_of_isAbout {call : Call} {f : Fault} (h : f.IsAbout call) (name : String) :
    f.names name = false := by
  have hcode := h.code
  unfold Fault.names
  cases hproblem : f.problem with
  | unknownMetric name' known =>
      rw [hproblem] at hcode
      rcases hcode with hcode | hcode <;> cases hcode
  | emptyExpression | unrecognized | malformedNumber | invalidArgument | unavailable => rfl

theorem isShape_eq_false_of_mem_unknownMetrics {known : Metric.Registry} {references : List Reference} {f : Fault}
    (h : f ∈ unknownMetrics known [] references) : f.isShape = false := by
  obtain ⟨r, -, rfl⟩ := mem_unknownMetrics h
  rfl

theorem isShape_of_mem_filterMap_fault? {kind : Formula.Kind} {arguments : List Argument} {f : Fault}
    (h : f ∈ arguments.filterMap (Argument.fault? kind)) : f.isShape = true := by
  obtain ⟨a, -, hf⟩ := List.mem_filterMap.mp h
  exact (isOwn_of_fault? hf).shape

/-- The faults of shape and of number that a call has are the faults of its arguments. -/
theorem perm_filter_isShape (known : Metric.Registry) {call : Call} (hkind : call.kind ≠ .threshold)
    (hne : call.arguments ≠ []) :
    ((faults (compileCall known call)).filter Fault.isShape).Perm
      (call.arguments.filterMap (Argument.fault? call.kind)) := by
  obtain ⟨repeated, hrepeated, hfaults⟩ := Reading.ofCall_faults hkind hne
  have hown : (call.arguments.filterMap (Argument.fault? call.kind)).filter Fault.isShape =
      call.arguments.filterMap (Argument.fault? call.kind) :=
    List.filter_eq_self.mpr fun f hf => isShape_of_mem_filterMap_fault? hf
  have hrest : repeated.filter Fault.isShape = [] := by
    simpa [List.filter_eq_nil_iff] using hrepeated
  have hunknown : (unknownMetrics known [] call.extracted).filter Fault.isShape = [] := by
    rw [List.filter_eq_nil_iff]
    intro f hf
    rw [isShape_eq_false_of_mem_unknownMetrics hf]
    exact Bool.false_ne_true
  have hperm := (perm_faults_compileCall known call).filter Fault.isShape
  rw [hfaults, List.filter_append, List.filter_append, hown, hrest, hunknown, List.append_nil, List.append_nil] at hperm
  exact hperm

theorem eq_toList_of_perm {α : Type} {l : List α} {o : Option α} (h : l.Perm o.toList) : l = o.toList := by
  cases o with
  | none => exact h.eq_nil
  | some a => exact List.perm_singleton.mp h

theorem ownFaults_eq {kind : Formula.Kind} (hkind : kind ≠ .threshold) (a : Argument) :
    a.ownFaults kind = (a.fault? kind).toList := by
  apply eq_toList_of_perm
  have hperm : (a.ownFaults kind).Perm ([a].filterMap (Argument.fault? kind)) :=
    @perm_filter_isShape .standard ⟨kind, .start, [a]⟩ hkind (List.cons_ne_nil _ _)
  rw [List.filterMap_cons, List.filterMap_nil] at hperm
  cases h : a.fault? kind <;> simpa [h] using hperm

theorem filter_names_faults (known : Metric.Registry) (call : Call) (name : String) :
    (faults (compileCall known call)).filter (Fault.names name) =
      if known.names.contains name = true then []
      else ((call.extracted.find? fun r => r.name == name).map fun r =>
        ⟨.unknownMetric name known.toList, r.position⟩).toList := by
  have hreading : (Reading.ofCall call).faults.filter (Fault.names name) = [] := by
    rw [List.filter_eq_nil_iff]
    intro f hf
    rw [names_eq_false_of_isAbout (isAbout_of_mem_faults hf)]
    exact Bool.false_ne_true
  have hperm := (perm_faults_compileCall known call).filter (Fault.names name)
  rw [List.filter_append, hreading, List.nil_append, filter_names_unknownMetrics] at hperm
  simp only [List.not_mem_nil, or_false] at hperm
  split at hperm
  · next hknown =>
      rw [if_pos hknown]
      exact hperm.eq_nil
  · next hknown =>
      rw [if_neg hknown]
      exact eq_toList_of_perm hperm

/-- What is found in a call leaves nothing out and adds nothing. -/
structure NothingHidden (known : Metric.Registry) (call : Call) (found : List Fault) : Prop where
  /-- The faults of shape and of number are those that the arguments have alone. -/
  shapes : call.kind ≠ .threshold →
    (found.filter Fault.isShape).Perm (call.arguments.flatMap (Argument.ownFaults call.kind))
  /-- An argument of the right shape has none alone; any other has one, at a place of its own. -/
  alone : call.kind ≠ .threshold → ∀ a ∈ call.arguments,
    (a.HasShape call.kind ∧ a.ownFaults call.kind = []) ∨
      (¬a.HasShape call.kind ∧ ∃ f, a.ownFaults call.kind = [f] ∧ f.IsOwn a)
  /-- A name has a fault if it is not known, and this once, where it is first used. -/
  unknown : ∀ name, found.filter (Fault.names name) =
    if known.names.contains name = true then []
    else ((call.extracted.find? fun r => r.name == name).map fun r =>
      ⟨.unknownMetric name known.toList, r.position⟩).toList

theorem nothingHidden_compileCall (known : Metric.Registry) {call : Call} (hne : call.arguments ≠ [])
    (hlexed : ∀ a ∈ call.arguments, Lexed a.symbols) : NothingHidden known call (faults (compileCall known call)) where
  shapes hkind := by
    have hown : call.arguments.flatMap (Argument.ownFaults call.kind) =
        call.arguments.filterMap (Argument.fault? call.kind) := by
      rw [List.filterMap_eq_flatMap_toList]
      exact List.flatMap_congr fun a _ => ownFaults_eq hkind a
    rw [hown]
    exact perm_filter_isShape known hkind hne
  alone hkind a ha := by
    have hshape : a.fault? call.kind = none ↔ a.HasShape call.kind := fault?_eq_none_iff (hlexed a ha)
    rw [ownFaults_eq hkind]
    cases h : a.fault? call.kind with
    | none => exact .inl ⟨hshape.mp h, rfl⟩
    | some f => exact .inr ⟨fun hhas => Option.some_ne_none f (h.symm.trans (hshape.mpr hhas)), f, rfl, isOwn_of_fault? h⟩
  unknown := filter_names_faults known call

/-- No argument of a call hides the fault of another. -/
theorem faults_nothingHidden (known : Metric.Registry) {text : String} {call : Call}
    (h : recognized? text = some call) (hne : call.arguments ≠ []) :
    NothingHidden known call (faults (compile known text)) := by
  rw [compile_of_recognized h]
  exact nothingHidden_compileCall known hne (lexed_of_recognized h)

/-- Each of the last three arguments has a fault of its own, and two of the names are not known. -/
theorem nothingHidden_weights :
    let text := "WEIGHTED_SUM(FOO: 0.5, BLEU: x1, BAR 0.2, foo:)"
    let call : Call := ⟨.weightedSum, ⟨1, 13⟩,
      [⟨[⟨.identifier "FOO", ⟨1, 14⟩⟩, ⟨.colon, ⟨1, 17⟩⟩, ⟨.number "0.5", ⟨1, 19⟩⟩], ⟨1, 14⟩⟩,
        ⟨[⟨.identifier "BLEU", ⟨1, 24⟩⟩, ⟨.colon, ⟨1, 28⟩⟩, ⟨.identifier "X1", ⟨1, 30⟩⟩], ⟨1, 24⟩⟩,
        ⟨[⟨.identifier "BAR", ⟨1, 34⟩⟩, ⟨.number "0.2", ⟨1, 38⟩⟩], ⟨1, 34⟩⟩,
        ⟨[⟨.identifier "FOO", ⟨1, 43⟩⟩, ⟨.colon, ⟨1, 46⟩⟩], ⟨1, 43⟩⟩]⟩
    recognized? text = some call ∧ NothingHidden .standard call (faults (compile .standard text)) := by
  intro text call
  have hrecognized : recognized? text = some call := by decide +kernel
  exact ⟨hrecognized, faults_nothingHidden .standard hrecognized (List.cons_ne_nil _ _)⟩

end Scorecard.Expression
