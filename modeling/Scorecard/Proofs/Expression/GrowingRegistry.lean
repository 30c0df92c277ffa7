import Scorecard.Proofs.Expression.Diagnosis
import Scorecard.Proofs.Metric.Registration

/-!
Registries that grow. A registry has a say in one thing only, which of the names in an expression are not known;
so a registry that knows more finds what one that knows less finds, without the names that it knows, and accepts
what the other accepts, for the same formula. The main statement is `compile_of_subset`.
-/
namespace Scorecard.Expression

/-- The fault is that a metric is not known, and the registry knows it. -/
def Fault.isSettledBy (known : Metric.Registry) (f : Fault) : Bool :=
  match f.problem with
  | .unknownMetric name _ => known.names.contains name
  | _ => false

/-- The fault as it is told where the registry is another. -/
def Fault.listing (known : Metric.Registry) (f : Fault) : Fault :=
  match f.problem with
  | .unknownMetric name _ => ⟨.unknownMetric name known.toList, f.position⟩
  | _ => f

variable {known known' : Metric.Registry}

@[simp] theorem Fault.position_listing (f : Fault) : (f.listing known).position = f.position := by
  unfold listing
  split <;> rfl

@[simp] theorem Fault.label_listing (f : Fault) : (f.listing known).label = f.label := by
  unfold listing
  split
  · next h => simp [label, h, Problem.code]
  · rfl

/-- A fault that is not about an unknown metric is none of the registry's business. -/
theorem Fault.of_code_ne {f : Fault} (h : f.problem.code ≠ .unknownMetric) :
    f.isSettledBy known = false ∧ f.listing known = f := by
  unfold isSettledBy listing
  split
  · next hproblem => exact absurd (congrArg Problem.code hproblem) h
  · exact ⟨rfl, rfl⟩

/-- Faults that are not about unknown metrics are the same whatever is known. -/
theorem map_listing_filter_of_code_ne {found : List Fault} (h : ∀ f ∈ found, f.problem.code ≠ .unknownMetric) :
    (found.filter fun f => !f.isSettledBy known).map (Fault.listing known) = found := by
  have hkept : (found.filter fun f => !f.isSettledBy known) = found :=
    List.filter_eq_self.mpr fun f hf => by simp [(Fault.of_code_ne (h f hf)).1]
  rw [hkept]
  exact (List.map_congr_left fun f hf => (Fault.of_code_ne (h f hf)).2).trans (List.map_id' found)

/-! ### Unknown metrics -/

/-- A name that neither registry knows is reported at the same place. The names that only one of them knows may have
been reported before by the other. -/
theorem unknownMetrics_of_subset (h : known ⊆ known') {reported reported' : List String}
    (hreported : ∀ name, known'.names.contains name = false → (name ∈ reported ↔ name ∈ reported'))
    (references : List Reference) :
    unknownMetrics known' reported' references =
      ((unknownMetrics known reported references).filter fun f => !f.isSettledBy known').map (Fault.listing known') := by
  induction references generalizing reported reported' with
  | nil => rfl
  | cons r rs ih =>
      cases hr' : known'.names.contains r.name with
      | true =>
          rw [unknownMetrics, if_pos (by simp [hr']), unknownMetrics]
          split
          · exact ih hreported
          · rw [List.filter_cons_of_neg (by simp [Fault.isSettledBy, hr'])]
            refine ih fun name hname => ?_
            have hne : name ≠ r.name := fun heq => by simp [heq, hr'] at hname
            rw [List.mem_cons, or_iff_right hne, hreported name hname]
      | false =>
          have hr : known.names.contains r.name = false := by
            rw [← Bool.not_eq_true] at hr' ⊢
            exact fun hknown => hr' (h r.name hknown)
          by_cases hmem : r.name ∈ reported
          · have hmem' := (hreported r.name hr').mp hmem
            rw [unknownMetrics, if_pos (by simp [hmem']), unknownMetrics, if_pos (by simp [hmem])]
            exact ih hreported
          · have hmem' : r.name ∉ reported' := fun hmem' => hmem ((hreported r.name hr').mpr hmem')
            rw [unknownMetrics, if_neg (by simp [hr', hmem']), unknownMetrics, if_neg (by simp [hr, hmem]),
              List.filter_cons_of_pos (by simp [Fault.isSettledBy, hr']), List.map_cons]
            refine congrArg _ (ih fun name hname => ?_)
            rw [List.mem_cons, List.mem_cons, hreported name hname]

/-! ### Expressions -/

theorem faults_compileCall_of_subset (h : known ⊆ known') (call : Call) :
    faults (compileCall known' call) =
      ((faults (compileCall known call)).filter fun f => !f.isSettledBy known').map (Fault.listing known') := by
  have hreading : ∀ f ∈ (Reading.ofCall call).faults, f.problem.code ≠ .unknownMetric := by
    intro f hf
    rcases (isAbout_of_mem_faults hf).code with hcode | hcode <;> simp [hcode]
  rw [faults_compileCall, faults_compileCall, filter_inOrder, map_inOrder (by simp), List.filter_append, List.map_append,
    map_listing_filter_of_code_ne hreading, ← unknownMetrics_of_subset h fun _ _ => Iff.rfl]

/-- A text that forms no call is refused by every registry, and for the same reason. -/
theorem compile_of_unrecognized {text : String} (h : recognized? text = none) :
    ∃ f, f.problem.code ≠ .unknownMetric ∧ ∀ known, compile known text = .error [f] := by
  cases htokens : tokens text with
  | nil => exact ⟨⟨.emptyExpression, .start⟩, by simp [Problem.code], compile_of_tokens_eq_nil htokens⟩
  | cons head rest =>
      have hne : tokens text ≠ [] := htokens ▸ List.cons_ne_nil head rest
      cases hcall : Call.ofTokens head rest with
      | ok call =>
          rw [recognized?_eq_some_iff.mpr ⟨head, rest, htokens, hcall⟩] at h
          cases h
      | error fault =>
          obtain ⟨m, t, -, rfl⟩ := Call.ofTokens_eq_error hcall
          refine ⟨mismatch m t.position, by simp [mismatch, Problem.code], fun known => ?_⟩
          rw [compile_of_tokens_ne_nil hne, htokens, compileTokens, hcall]

/-- What a registry finds that knows more. -/
theorem faults_compile_of_subset (h : known ⊆ known') (text : String) :
    faults (compile known' text) =
      ((faults (compile known text)).filter fun f => !f.isSettledBy known').map (Fault.listing known') := by
  cases hrecognized : recognized? text with
  | some call =>
      rw [compile_of_recognized hrecognized, compile_of_recognized hrecognized]
      exact faults_compileCall_of_subset h call
  | none =>
      obtain ⟨f, hcode, hcompile⟩ := compile_of_unrecognized hrecognized
      rw [hcompile, hcompile]
      exact (map_listing_filter_of_code_ne (List.forall_mem_singleton.mpr hcode)).symm

/-- There is a formula exactly if there is no fault. -/
theorem exists_compiled_iff {text : String} : (∃ c, compile known text = .ok c) ↔ faults (compile known text) = [] := by
  cases hcompile : compile known text with
  | ok c => exact iff_of_true ⟨c, rfl⟩ rfl
  | error found =>
      refine iff_of_false (by simp) ?_
      rintro rfl
      cases hrecognized : recognized? text with
      | some call => exact compileCall_ne_error_nil known call ((compile_of_recognized hrecognized known).symm.trans hcompile)
      | none =>
          obtain ⟨f, -, hsingle⟩ := compile_of_unrecognized hrecognized
          cases (hsingle known).symm.trans hcompile

theorem Derives.mono {ss : List Symbol} {c : Compiled} (h : known ⊆ known') : Derives known ss c → Derives known' ss c
  | .call hinner harguments hknown => .call hinner harguments fun name hname => h name (hknown name hname)

/-- A registry that knows more gives the same formula where there was one. Where there was none, what is left of the
faults are those about no name that it knows, and there is a formula exactly if none is left. -/
theorem compile_of_subset (h : known ⊆ known') (text : String) :
    (∀ c, compile known text = .ok c → compile known' text = .ok c) ∧
      ∀ found, compile known text = .error found →
        (faults (compile known' text)).map Fault.label =
            (found.filter fun f => !f.isSettledBy known').map Fault.label ∧
          ((∃ c, compile known' text = .ok c) ↔ (found.filter fun f => !f.isSettledBy known') = []) := by
  refine ⟨fun c hc => ?_, fun found hfound => ?_⟩
  · rw [compile_eq_ok_iff_derives] at hc ⊢
    exact hc.mono h
  · have hfaults := faults_compile_of_subset h text
    rw [hfound, faults] at hfaults
    rw [exists_compiled_iff, hfaults, List.map_map, List.map_eq_nil_iff]
    exact ⟨List.map_congr_left fun f _ => f.label_listing, Iff.rfl⟩

/-- Of two names that are not known one is registered. -/
theorem compile_of_subset_withNames :
    let text := "MAX(bleu, fluency, tone)"
    let known' := Metric.Registry.standard.withNames ["Fluency "]
    Metric.Registry.standard ⊆ known' ∧
      ∃ found, compile .standard text = .error found ∧
        (found.filter fun f => !f.isSettledBy known').map Fault.label = [(.unknownMetric, ⟨1, 20⟩)] ∧
          ¬∃ c, compile known' text = .ok c := by
  intro text known'
  have hsubset : Metric.Registry.standard ⊆ known' := Metric.Registry.subset_withNames _ _
  obtain ⟨hok, herror⟩ := compile_of_subset hsubset text
  have hfaults : (faults (compile known' text)).map Fault.label = [(.unknownMetric, ⟨1, 20⟩)] := by decide +kernel
  cases hcompile : compile .standard text with
  | ok c =>
      rw [hok c hcompile] at hfaults
      cases hfaults
  | error found =>
      obtain ⟨hlabels, hiff⟩ := herror found hcompile
      rw [hlabels] at hfaults
      refine ⟨hsubset, found, rfl, hfaults, fun hcompiled => ?_⟩
      rw [hiff.mp hcompiled] at hfaults
      cases hfaults

end Scorecard.Expression
