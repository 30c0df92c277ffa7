import Scorecard.Proofs.Execution.Scoring
import Scorecard.Proofs.Table

/-!
What scoring writes to the traces. An indicator that is scored on the metrics of all traces is scored on each
trace by itself as well, and where the metrics of a trace do not suffice the trace is left as it is, with the
score that it may have brought along. The measurements stay, so the order of the indicators does not matter.
-/
namespace Scorecard.Execution

/-! ### One trace -/

/-- The score that the metrics of the trace give by themselves, if they suffice. -/
def ownScore? (f : Formula) (t : Trace) : Option Float := (f.evaluate (aggregate [t])).toOption

theorem ownScore?_eq_some_iff {f : Formula} {t : Trace} {value : Float} :
    ownScore? f t = some value ↔ f.evaluate (aggregate [t]) = .ok value := by
  rw [ownScore?]
  cases f.evaluate (aggregate [t]) <;> simp [Except.toOption]

/-- Metrics come from measurements alone. -/
theorem ownScore?_congr {t t' : Trace} (h : t.measurements = t'.measurements) (f : Formula) :
    ownScore? f t = ownScore? f t' := by
  simp only [ownScore?, aggregate, tallies, List.flatMap_cons, List.flatMap_nil, h]

theorem scores_scoreTrace (name : String) (f : Formula) (t : Trace) (name' : String) :
    (scoreTrace name f t).scores.get? name' =
      if name' = name then (ownScore? f t).or (t.scores.get? name') else t.scores.get? name' := by
  rw [scoreTrace, ownScore?]
  cases f.evaluate (aggregate [t]) with
  | ok score => exact Table.get?_insert t.scores name name' score
  | error _ => exact (ite_self _).symm

/-- The trace after several indicators, given by their names and formulas. -/
def scoreAll (scored : List (String × Formula)) (t : Trace) : Trace :=
  scored.foldl (fun t e => scoreTrace e.1 e.2 t) t

theorem scoreAll_cons (e : String × Formula) (scored : List (String × Formula)) (t : Trace) :
    scoreAll (e :: scored) t = scoreAll scored (scoreTrace e.1 e.2 t) := rfl

/-- Nothing but the scores of a trace is written. -/
theorem scoreAll_eq (scored : List (String × Formula)) (t : Trace) :
    scoreAll scored t = { t with scores := (scoreAll scored t).scores } := by
  induction scored generalizing t with
  | nil => rfl
  | cons e scored ih =>
      rw [scoreAll_cons, ih, scoreTrace]
      split <;> rfl

theorem ownScore?_scoreTrace (f : Formula) (name : String) (f' : Formula) (t : Trace) :
    ownScore? f (scoreTrace name f' t) = ownScore? f t :=
  ownScore?_congr (Context.measurements_scoreTrace name f' t) f

theorem scores_scoreAll_of_not_mem {scored : List (String × Formula)} {name : String}
    (h : name ∉ scored.map (·.1)) (t : Trace) : (scoreAll scored t).scores.get? name = t.scores.get? name := by
  induction scored generalizing t with
  | nil => rfl
  | cons e scored ih =>
      rw [List.map_cons, List.mem_cons, not_or] at h
      obtain ⟨hne, hnot⟩ := h
      rw [scoreAll_cons, ih hnot, scores_scoreTrace, if_neg hne]

/-- Of an indicator with a name of its own a trace has the score by its own metrics, or keeps what it had. -/
theorem scores_scoreAll {scored : List (String × Formula)} (hnames : (scored.map (·.1)).Nodup) {name : String}
    {f : Formula} (h : (name, f) ∈ scored) (t : Trace) :
    (scoreAll scored t).scores.get? name = (ownScore? f t).or (t.scores.get? name) := by
  induction scored generalizing t with
  | nil => cases h
  | cons e scored ih =>
      obtain ⟨hnew, hnames⟩ := List.nodup_cons.mp hnames
      rw [scoreAll_cons]
      rcases List.mem_cons.mp h with rfl | h
      · rw [scores_scoreAll_of_not_mem hnew, scores_scoreTrace, if_pos rfl]
      · have hne : name ≠ e.1 := by
          rintro rfl
          exact hnew (List.mem_map.mpr ⟨(e.1, f), h, rfl⟩)
        rw [ih hnames h, ownScore?_scoreTrace, scores_scoreTrace, if_neg hne]

/-- A trace has a score under the names that it had one under, and those that its own metrics give one for. -/
theorem contains_scoreAll_iff (scored : List (String × Formula)) (t : Trace) (name : String) :
    (scoreAll scored t).scores.contains name = true ↔
      t.scores.contains name = true ∨ ∃ f, (name, f) ∈ scored ∧ (ownScore? f t).isSome = true := by
  induction scored generalizing t with
  | nil => simp [scoreAll]
  | cons e scored ih =>
      have hhead : (scoreTrace e.1 e.2 t).scores.contains name = true ↔
          t.scores.contains name = true ∨ (name = e.1 ∧ (ownScore? e.2 t).isSome = true) := by
        rw [Table.contains, scores_scoreTrace, Table.contains]
        split
        · next hname => simp [hname, or_comm]
        · next hname => simp [hname]
      rw [scoreAll_cons, ih, hhead]
      simp only [ownScore?_scoreTrace, List.mem_cons]
      constructor
      · rintro ((h | ⟨hname, h⟩) | ⟨f, hmem, h⟩)
        · exact .inl h
        · exact .inr ⟨e.2, .inl (Prod.ext hname rfl), h⟩
        · exact .inr ⟨f, .inr hmem, h⟩
      · rintro (h | ⟨f, rfl | hmem, h⟩)
        · exact .inl (.inl h)
        · exact .inl (.inr ⟨rfl, h⟩)
        · exact .inr ⟨f, hmem, h⟩

/-! ### Lists of indicators -/

namespace Context

variable (c : Context)

/-- The indicators that are scored before one ends the scoring, by their names and formulas. -/
def scored (c : Context) : List Kpi → List (String × Formula)
  | [] => []
  | kpi :: kpis =>
    match kpi.specification.build c.known with
    | .error _ => []
    | .ok f =>
      match f.evaluate c.metrics with
      | .error _ => if c.settings.failOnKpiError then [] else c.scored kpis
      | .ok _ => (kpi.name, f) :: c.scored kpis

variable {c} {kpi : Kpi}

theorem scored_cons_of_scores {f : Formula} {value : Float} (h : Scores c.known c.metrics kpi f value) (kpis : List Kpi) :
    c.scored (kpi :: kpis) = (kpi.name, f) :: c.scored kpis := by
  rw [scored, h.build]
  dsimp only
  rw [h.evaluate]

theorem scored_cons_of_passedOver {f : Formula} {error : EvaluationError}
    (h : PassedOver c.settings c.known c.metrics kpi f error) (kpis : List Kpi) :
    c.scored (kpi :: kpis) = c.scored kpis := by
  rw [scored, h.build]
  dsimp only
  rw [h.evaluate]
  dsimp only
  rw [if_neg (by simp [h.lenient])]

theorem scored_cons_of_stops {failure : Failure} (h : Stops c.settings c.known c.metrics kpi failure) (kpis : List Kpi) :
    c.scored (kpi :: kpis) = [] := by
  cases h with
  | specification hbuild => rw [scored, hbuild]
  | evaluation hbuild hevaluate hstrict =>
      rw [scored, hbuild]
      dsimp only
      rw [hevaluate]
      dsimp only
      rw [if_pos hstrict]

variable (c) (index : Nat) (traces : List Trace) (kpis : List Kpi)

/-- Scoring writes each trace by itself. -/
theorem traces_score : (c.score index traces kpis).traces = traces.map (scoreAll (c.scored kpis)) := by
  induction kpis using score_induction c.settings c.known c.metrics generalizing index traces with
  | nil => exact (List.map_id traces).symm
  | scores kpi kpis f value h ih =>
      rw [score_cons_of_scores c index traces kpis h, scored_cons_of_scores h]
      refine (ih _ _).trans ?_
      rw [List.map_map]
      rfl
  | passedOver kpi kpis f error h ih =>
      rw [score_cons_of_passedOver c index traces kpis h, scored_cons_of_passedOver h]
      exact ih _ _
  | stops kpi kpis failure h =>
      obtain ⟨journal, hscore⟩ := score_cons_of_stops c index traces kpis h
      rw [hscore, scored_cons_of_stops h]
      exact (List.map_id traces).symm

/-- The entries are those of the indicators that are scored. -/
theorem names_history_score :
    (c.score index traces kpis).history.map (·.kpiName) = (c.scored kpis).map (·.1) := by
  induction kpis using score_induction c.settings c.known c.metrics generalizing index traces with
  | nil => rfl
  | scores kpi kpis f value h ih =>
      rw [score_cons_of_scores c index traces kpis h, scored_cons_of_scores h, List.map_cons, List.map_cons, ih,
        (c.records_entry index h).indicator.2]
  | passedOver kpi kpis f error h ih =>
      rw [score_cons_of_passedOver c index traces kpis h, scored_cons_of_passedOver h]
      exact ih _ _
  | stops kpi kpis failure h =>
      obtain ⟨journal, hscore⟩ := score_cons_of_stops c index traces kpis h
      rw [hscore, scored_cons_of_stops h]
      rfl

/-- The names are a part of those of the benchmark, in the same order. -/
theorem names_scored_sublist : ((c.scored kpis).map (·.1)).Sublist (kpis.map (·.name)) := by
  induction kpis using score_induction c.settings c.known c.metrics with
  | nil => exact .slnil
  | scores kpi kpis f value h ih =>
      rw [scored_cons_of_scores h]
      exact ih.cons_cons _
  | passedOver kpi kpis f error h ih =>
      rw [scored_cons_of_passedOver h]
      exact ih.cons _
  | stops kpi kpis failure h =>
      rw [scored_cons_of_stops h]
      exact List.nil_sublist _

variable {c} {kpis}

theorem exists_of_mem_scored {name : String} {f : Formula} (h : (name, f) ∈ c.scored kpis) :
    ∃ kpi ∈ kpis, kpi.name = name ∧ ∃ value, Scores c.known c.metrics kpi f value := by
  induction kpis using score_induction c.settings c.known c.metrics with
  | nil => cases h
  | scores kpi kpis f' value hkpi ih =>
      rw [scored_cons_of_scores hkpi] at h
      rcases List.mem_cons.mp h with heq | h
      · obtain ⟨rfl, rfl⟩ := Prod.mk.inj heq
        exact ⟨kpi, List.mem_cons_self, rfl, value, hkpi⟩
      · obtain ⟨k, hk, hrest⟩ := ih h
        exact ⟨k, List.mem_cons_of_mem _ hk, hrest⟩
  | passedOver kpi kpis f' error hkpi ih =>
      rw [scored_cons_of_passedOver hkpi] at h
      obtain ⟨k, hk, hrest⟩ := ih h
      exact ⟨k, List.mem_cons_of_mem _ hk, hrest⟩
  | stops kpi kpis failure hkpi =>
      rw [scored_cons_of_stops hkpi] at h
      cases h

/-- Where the first indicators go on, they are scored or passed over like a list of their own. -/
theorem scored_append {before : List Kpi} (hbefore : ∀ k ∈ before, GoesOn c.settings c.known c.metrics k)
    (after : List Kpi) : c.scored (before ++ after) = c.scored before ++ c.scored after := by
  induction before using score_induction c.settings c.known c.metrics with
  | nil => rfl
  | scores kpi kpis f value h ih =>
      rw [List.cons_append, scored_cons_of_scores h, scored_cons_of_scores h, ih (List.forall_mem_cons.mp hbefore).2]
      rfl
  | passedOver kpi kpis f error h ih =>
      rw [List.cons_append, scored_cons_of_passedOver h, scored_cons_of_passedOver h,
        ih (List.forall_mem_cons.mp hbefore).2]
  | stops kpi kpis failure h => exact absurd (List.forall_mem_cons.mp hbefore).1 h.not_goesOn

/-- An indicator with a score is scored if those before it go on. -/
theorem mem_scored {kpi : Kpi} {f : Formula} {value : Float} (h : Scores c.known c.metrics kpi f value)
    (hkpis : ∀ k ∈ kpis, GoesOn c.settings c.known c.metrics k) (hkpi : kpi ∈ kpis) : (kpi.name, f) ∈ c.scored kpis := by
  obtain ⟨before, after, rfl⟩ := List.append_of_mem hkpi
  rw [scored_append (List.forall_mem_append.mp hkpis).1, scored_cons_of_scores h]
  exact List.mem_append_right _ List.mem_cons_self

end Context

end Scorecard.Execution
