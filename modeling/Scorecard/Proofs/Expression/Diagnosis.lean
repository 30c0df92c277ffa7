import Scorecard.Proofs.Expression.Faults

/-!
What a text is told to have wrong. A blank text is an empty expression, and this is all that is said of it; a
text that is not one keyword with one pair of parentheses has one fault, which says so; the faults of a call are
all about its arguments. They stand in the order of their places, and each place is that of a token.
-/
namespace Scorecard.Expression

/-- The text holds nothing but blanks. -/
def IsBlank (text : String) : Prop := ∀ c ∈ text.toList, Text.isBlank c = true

/-- One keyword and one pair of parentheses, with nothing inside that is a parenthesis or a stray character, and
nothing behind. -/
def IsCall (ss : List Symbol) : Prop :=
  ∃ (kind : Formula.Kind) (inner : List Symbol), (∀ s ∈ inner, s.isInner = true) ∧
    ss = .identifier kind.keyword :: .openParen :: (inner ++ [.closeParen])

/-! ### Calls -/

/-- The texts that are recognized are those whose symbols are a call. -/
theorem isCall_iff_recognized {text : String} :
    IsCall ((tokens text).map (·.symbol)) ↔ ∃ call, recognized? text = some call := by
  simp only [recognized?_eq_some_iff]
  have hlexed := lexed_tokens text
  constructor
  · rintro ⟨kind, inner, hinner, hsymbols⟩
    obtain ⟨⟨_, p⟩, rest, htokens, rfl, hrest⟩ := List.map_eq_cons_iff.mp hsymbols
    obtain ⟨⟨_, opening⟩, body, rfl, rfl, hbody⟩ := List.map_eq_cons_iff.mp hrest
    obtain ⟨inner, ending, rfl, rfl, hending⟩ := List.map_eq_append_iff.mp hbody
    obtain ⟨⟨_, closing⟩, rfl, rfl⟩ := List.map_eq_singleton_iff.mp hending
    have hkind : kindOf ⟨.identifier kind.keyword, p⟩ = .ok kind :=
      kindOf_eq_ok_iff.mpr ⟨_, rfl, Formula.Kind.ofKeyword?_keyword kind⟩
    refine ⟨⟨kind, opening, argumentsOf inner closing⟩, _, _, htokens, ?_⟩
    exact Call.ofTokens_eq_ok_iff.mpr ⟨inner, closing, hkind, rfl, List.forall_mem_map.mp hinner, rfl⟩
  · rintro ⟨call, head, rest, htokens, hcall⟩
    obtain ⟨inner, closing, hkind, rfl, hinner, -⟩ := Call.ofTokens_eq_ok_iff.mp hcall
    obtain ⟨word, hhead, hword⟩ := kindOf_eq_ok_iff.mp hkind
    rw [htokens] at hlexed ⊢
    have hidentifier : isIdentifier word = true := hlexed word (hhead ▸ List.mem_cons_self)
    refine ⟨call.kind, inner.map (·.symbol), List.forall_mem_map.mpr hinner, ?_⟩
    rw [← (ofKeyword?_eq_some_iff hidentifier).mp hword]
    simp [hhead]

theorem splitBody_eq_error {last : Position} {ts : List Token} {fault : Fault} (h : splitBody last ts = .error fault) :
    ∃ m, ∃ p ∈ last :: ts.map (·.position), fault = mismatch m p := by
  induction ts generalizing last with
  | nil =>
      cases h
      exact ⟨_, last, List.mem_cons_self, rfl⟩
  | cons t ts ih =>
      by_cases ht : t.symbol.isInner = true
      · rw [splitBody_cons_of_isInner ht] at h
        cases hrest : splitBody t.position ts with
        | ok split =>
            rw [hrest] at h
            cases h
        | error fault' =>
            rw [hrest] at h
            cases h
            obtain ⟨m, p, hp, rfl⟩ := ih hrest
            exact ⟨m, p, List.mem_cons_of_mem last hp, rfl⟩
      · have hplace : t.position ∈ last :: (t :: ts).map (·.position) := by simp
        obtain ⟨symbol, p⟩ := t
        cases symbol with
        | identifier _ | number _ | comma | colon => exact absurd rfl ht
        | closeParen => cases h
        | openParen | stray c =>
            cases h
            exact ⟨_, p, hplace, rfl⟩

theorem kindOf_eq_error {head : Token} {fault : Fault} (h : kindOf head = .error fault) :
    ∃ m, fault = mismatch m head.position := by
  unfold kindOf at h
  split at h
  · split at h
    · cases h
    · cases h
      exact ⟨_, rfl⟩
  · cases h
    exact ⟨_, rfl⟩

/-- Tokens that form no call have one fault, at one of them. -/
theorem Call.ofTokens_eq_error {head : Token} {rest : List Token} {fault : Fault}
    (h : Call.ofTokens head rest = .error fault) :
    ∃ m, ∃ t ∈ head :: rest, fault = mismatch m t.position := by
  unfold Call.ofTokens at h
  cases hkind : kindOf head with
  | error fault' =>
      rw [hkind] at h
      cases h
      obtain ⟨m, rfl⟩ := kindOf_eq_error hkind
      exact ⟨m, head, List.mem_cons_self, rfl⟩
  | ok kind =>
      rw [hkind] at h
      cases rest with
      | nil =>
          cases h
          exact ⟨_, head, List.mem_cons_self, rfl⟩
      | cons paren body =>
          simp only [bind, Except.bind] at h
          split at h
          · cases hbody : splitBody paren.position body with
            | error fault' =>
                simp only [hbody] at h
                cases h
                obtain ⟨m, p, hp, rfl⟩ := splitBody_eq_error hbody
                obtain ⟨t, ht, rfl⟩ := List.mem_map.mp (show p ∈ (paren :: body).map (·.position) from hp)
                exact ⟨m, t, List.mem_cons_of_mem head ht, rfl⟩
            | ok split =>
                obtain ⟨inner, closing, trailing⟩ := split
                obtain ⟨-, rfl⟩ := splitBody_eq_ok_iff.mp hbody
                simp only [hbody] at h
                cases trailing with
                | nil => cases h
                | cons t ts =>
                    cases h
                    exact ⟨_, t, by simp, rfl⟩
          · cases h
            exact ⟨_, paren, List.mem_cons_of_mem head List.mem_cons_self, rfl⟩

/-- The places of a call and of its arguments are those of its tokens. -/
theorem mem_positions_of_ofTokens {head : Token} {rest : List Token} {call : Call}
    (h : Call.ofTokens head rest = .ok call) {p : Position}
    (hp : p = call.opening ∨ ∃ a ∈ call.arguments, p ∈ a.places) : p ∈ (head :: rest).map (·.position) := by
  obtain ⟨inner, closing, -, rfl, -, harguments⟩ := Call.ofTokens_eq_ok_iff.mp h
  rcases hp with rfl | ⟨a, ha, hp⟩
  · simp
  · rw [harguments] at ha
    have hplace := places_of_mem_argumentsOf ha hp
    rw [List.mem_append, List.mem_singleton] at hplace
    rcases hplace with hplace | rfl
    · simp only [List.map_cons, List.map_append]
      exact List.mem_cons_of_mem _ (List.mem_cons_of_mem _ (List.mem_append_left _ hplace))
    · simp

/-! ### Faults of calls -/

/-- Where a call has no fault, its formula can be built. -/
theorem Reading.exists_formula {call : Call} (h : (Reading.ofCall call).faults = []) :
    ∃ f, (Reading.ofCall call).formula? = some f := by
  obtain ⟨kind, opening, arguments⟩ := call
  cases kind with
  | average | least | greatest | weightedSum =>
      cases arguments with
      | nil => cases h
      | cons a as => exact ⟨_, rfl⟩
  | threshold =>
      change (Reading.ofThreshold opening arguments).faults = [] at h
      rw [Reading.ofThreshold_faults, List.append_eq_nil_iff] at h
      obtain ⟨hcount, hrest⟩ := h
      obtain ⟨hmetric, hnumber⟩ := List.append_eq_nil_iff.mp hrest
      match arguments with
      | [] | [_] | _ :: _ :: _ :: _ => simp at hcount
      | [a, b] =>
          change (fault? a.metric).toList = [] at hmetric
          change (fault? (b.number .threshold)).toList = [] at hnumber
          change ∃ f, (Reading.ofThreshold opening [a, b]).formula? = some f
          cases hm : a.metric with
          | error fault => simp [hm, fault?] at hmetric
          | ok r =>
              cases hn : b.number .threshold with
              | error fault => simp [hn, fault?] at hnumber
              | ok bound => simp [Reading.ofThreshold, hm, hn, read?]

theorem compileCall_ne_error_nil (known : Metric.Registry) (call : Call) : compileCall known call ≠ .error [] := by
  intro h
  have hnil : (Reading.ofCall call).faults ++ unknownMetrics known [] (Reading.ofCall call).references = [] := by
    rw [Reading.ofCall_references]
    apply List.Perm.nil_eq _ |>.symm
    rw [← show faults (compileCall known call) = [] by rw [h, faults]]
    exact perm_faults_compileCall known call
  obtain ⟨f, hformula⟩ := Reading.exists_formula (List.append_eq_nil_iff.mp hnil).1
  simp only [compileCall, hformula, hnil] at h
  cases h

/-- What is found in a call is about its arguments or about the metrics that they name, at a place of its own. -/
theorem mem_faults_compileCall {known : Metric.Registry} {call : Call} {f : Fault}
    (h : f ∈ faults (compileCall known call)) :
    f.problem.code ∈ [.malformedNumber, .invalidArgument, .unknownMetric] ∧
      (f.position = call.opening ∨ ∃ a ∈ call.arguments, f.position ∈ a.places) := by
  rw [(perm_faults_compileCall known call).mem_iff, List.mem_append] at h
  rcases h with h | h
  · have habout := isAbout_of_mem_faults h
    exact ⟨by rcases habout.code with hcode | hcode <;> simp [hcode], habout.place⟩
  · obtain ⟨r, hr, rfl⟩ := mem_unknownMetrics h
    exact ⟨by simp [Problem.code], .inr (Call.mem_places_of_mem_extracted hr)⟩

theorem pairwise_faults_compileCall (known : Metric.Registry) (call : Call) :
    (faults (compileCall known call)).Pairwise fun f g => f.position.atMost g.position = true := by
  rw [faults_compileCall]
  exact pairwise_inOrder _

/-! ### Texts -/

/-- How the text is read, and what comes of it. -/
inductive Recognition (known : Metric.Registry) (text : String) : Prop
  | blank (hblank : IsBlank text) (hcompile : compile known text = .error [⟨.emptyExpression, .start⟩])
  | unrecognized (hblank : ¬IsBlank text) (hcall : ¬IsCall ((tokens text).map (·.symbol))) (m : Mismatch)
      (t : Token) (hmem : t ∈ tokens text) (hcompile : compile known text = .error [⟨.unrecognized m, t.position⟩])
  | call (call : Call) (hblank : ¬IsBlank text) (hcall : IsCall ((tokens text).map (·.symbol)))
      (hcompile : compile known text = compileCall known call)
      (hplaces : ∀ p, (p = call.opening ∨ ∃ a ∈ call.arguments, p ∈ a.places) → p ∈ (tokens text).map (·.position))

theorem recognition (known : Metric.Registry) (text : String) : Recognition known text := by
  cases htokens : tokens text with
  | nil => exact .blank (tokens_eq_nil_iff.mp htokens) (compile_of_tokens_eq_nil htokens known)
  | cons head rest =>
      have hblank : ¬IsBlank text := fun h => by simp [tokens_eq_nil_iff.mpr h] at htokens
      cases hofTokens : Call.ofTokens head rest with
      | ok call =>
          have hrecognized : recognized? text = some call := recognized?_eq_some_iff.mpr ⟨head, rest, htokens, hofTokens⟩
          refine .call call hblank (isCall_iff_recognized.mpr ⟨call, hrecognized⟩)
            (compile_of_recognized hrecognized known) fun p hp => ?_
          rw [htokens]
          exact mem_positions_of_ofTokens hofTokens hp
      | error fault =>
          have hcall : ¬IsCall ((tokens text).map (·.symbol)) := by
            rw [isCall_iff_recognized]
            rintro ⟨call, hrecognized⟩
            obtain ⟨head', rest', htokens', hok⟩ := recognized?_eq_some_iff.mp hrecognized
            obtain ⟨rfl, rfl⟩ := List.cons.inj (htokens.symm.trans htokens')
            cases hofTokens.symm.trans hok
          obtain ⟨m, t, ht, rfl⟩ := Call.ofTokens_eq_error hofTokens
          refine .unrecognized hblank hcall m t (htokens ▸ ht) ?_
          rw [compile_of_tokens_ne_nil (htokens ▸ List.cons_ne_nil head rest), htokens, compileTokens, hofTokens]
          rfl

/-- A fault of a text that has tokens stands where one of them does. -/
theorem position_mem_of_mem_faults {known : Metric.Registry} {text : String} (hne : tokens text ≠ []) {f : Fault}
    (hf : f ∈ faults (compile known text)) : f.position ∈ (tokens text).map (·.position) := by
  cases recognition known text with
  | blank hblank => exact absurd (tokens_eq_nil_iff.mpr hblank) hne
  | unrecognized _ _ m t hmem hcompile =>
      rw [hcompile, faults, List.mem_singleton] at hf
      rw [hf]
      exact List.mem_map_of_mem hmem
  | call call _ _ hcompile hplaces => exact hplaces _ (mem_faults_compileCall (hcompile ▸ hf)).2

/-- What is said of a text is as it should be. -/
structure Diagnosed (known : Metric.Registry) (text : String) : Prop where
  /-- There is no formula exactly if there are faults. -/
  failure : (∃ found, compile known text = .error found) ↔ faults (compile known text) ≠ []
  /-- A blank text is an empty expression, and no other text is. -/
  blank : IsBlank text ↔ faults (compile known text) = [⟨.emptyExpression, ⟨1, 1⟩⟩]
  /-- A text that is neither blank nor a call has one fault, that it has no form that is known. -/
  unrecognized : (¬IsBlank text ∧ ¬IsCall ((tokens text).map (·.symbol))) ↔
    ∃ m p, faults (compile known text) = [⟨.unrecognized m, p⟩]
  /-- A call has faults of its arguments only. -/
  call : IsCall ((tokens text).map (·.symbol)) ↔
    ∀ f ∈ faults (compile known text), f.problem.code ∈ [.malformedNumber, .invalidArgument, .unknownMetric]
  /-- Faults stand in the order of their places. -/
  ordered : (faults (compile known text)).Pairwise fun f g => f.position.atMost g.position = true
  /-- The place of a fault is that of a token, unless there are no tokens. -/
  placed : ∀ f ∈ faults (compile known text),
    f.problem = .emptyExpression ∨ f.position ∈ (tokens text).map (·.position)

theorem not_isCall_of_isBlank {text : String} (h : IsBlank text) : ¬IsCall ((tokens text).map (·.symbol)) := by
  rw [tokens_eq_nil_iff.mpr h]
  rintro ⟨kind, inner, -, hsymbols⟩
  cases hsymbols

theorem diagnosed_of_blank {known : Metric.Registry} {text : String} (hblank : IsBlank text)
    (hcompile : compile known text = .error [⟨.emptyExpression, .start⟩]) : Diagnosed known text where
  failure := by simp [hcompile, faults]
  blank := by simp [hcompile, faults, hblank, Position.start]
  unrecognized := by simp [hcompile, faults, hblank]
  call := by simp [hcompile, faults, not_isCall_of_isBlank hblank, Problem.code]
  ordered := by simp [hcompile, faults]
  placed := by simp [hcompile, faults]

theorem diagnosed_of_unrecognized {known : Metric.Registry} {text : String} (hblank : ¬IsBlank text)
    (hcall : ¬IsCall ((tokens text).map (·.symbol))) {m : Mismatch} {t : Token} (hmem : t ∈ tokens text)
    (hcompile : compile known text = .error [⟨.unrecognized m, t.position⟩]) : Diagnosed known text where
  failure := by simp [hcompile, faults]
  blank := by simp [hcompile, faults, hblank]
  unrecognized := by simp [hcompile, faults, hblank, hcall]
  call := by simp [hcompile, faults, hcall, Problem.code]
  ordered := by simp [hcompile, faults]
  placed f hf := by
    rw [hcompile, faults, List.mem_singleton] at hf
    rw [hf]
    exact .inr (List.mem_map_of_mem hmem)

theorem code_of_mem_faults {known : Metric.Registry} {text : String} {call : Call}
    (hcompile : compile known text = compileCall known call) :
    ∀ f ∈ faults (compile known text), f.problem.code ∈ [.malformedNumber, .invalidArgument, .unknownMetric] :=
  fun _ hf => (mem_faults_compileCall (hcompile ▸ hf)).1

theorem diagnosed_of_call {known : Metric.Registry} {text : String} (hblank : ¬IsBlank text)
    (hcall : IsCall ((tokens text).map (·.symbol))) {call : Call} (hcompile : compile known text = compileCall known call)
    (hplaces : ∀ p, (p = call.opening ∨ ∃ a ∈ call.arguments, p ∈ a.places) → p ∈ (tokens text).map (·.position)) :
    Diagnosed known text where
  failure := by
    cases h : compileCall known call with
    | ok compiled => simp [hcompile, h, faults]
    | error found =>
        rw [hcompile, h]
        refine iff_of_true ⟨found, rfl⟩ fun hnil => ?_
        exact compileCall_ne_error_nil known call (h.trans (congrArg _ hnil))
  blank := by
    refine iff_of_false hblank fun h => ?_
    have hmem := code_of_mem_faults hcompile ⟨.emptyExpression, ⟨1, 1⟩⟩ (h ▸ List.mem_singleton_self _)
    simp [Problem.code] at hmem
  unrecognized := by
    refine iff_of_false (fun h => h.2 hcall) ?_
    rintro ⟨m, p, h⟩
    have hmem := code_of_mem_faults hcompile ⟨.unrecognized m, p⟩ (h ▸ List.mem_singleton_self _)
    simp [Problem.code] at hmem
  call := iff_of_true hcall (code_of_mem_faults hcompile)
  ordered := hcompile ▸ pairwise_faults_compileCall known call
  placed f hf := .inr (hplaces _ (mem_faults_compileCall (hcompile ▸ hf)).2)

/-- Whatever the text and the registry, what is said of the text is as it should be. -/
theorem compile_diagnosed (known : Metric.Registry) (text : String) : Diagnosed known text := by
  cases recognition known text with
  | blank hblank hcompile => exact diagnosed_of_blank hblank hcompile
  | unrecognized hblank hcall m t hmem hcompile => exact diagnosed_of_unrecognized hblank hcall hmem hcompile
  | call call hblank hcall hcompile hplaces => exact diagnosed_of_call hblank hcall hcompile hplaces

end Scorecard.Expression
