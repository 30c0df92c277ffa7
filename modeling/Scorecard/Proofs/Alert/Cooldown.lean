import Scorecard.Proofs.Alert.Calendar
import Scorecard.Proofs.Timestamp.Order

/-!
Cooldowns over whole histories of checks. A history of calls is a list of steps, each of which shows one
entry to the alerts at the time of its call. An alert takes the steps by itself; a step that makes it fire
comes no earlier than its cooldown allows, and marks it. So the firings of an alert are a cooldown apart from
each other, and from the mark that it started with, whichever way the times of the calls move.
-/
namespace Scorecard.Alert

/-- A check of the alerts against new entries. -/
structure Call where
  now : Timestamp
  history : List Kpi.HistoryEntry

/-- One entry, as it is checked in a call. -/
structure Step where
  now : Timestamp
  entry : Kpi.HistoryEntry

def Call.steps (c : Call) : List Step := c.history.map fun e => ⟨c.now, e⟩

/-! ### One alert -/

/-- The alert after steps. -/
def afterSteps (a : Alert) (steps : List Step) : Alert := steps.foldl (fun a s => a.pass s.now s.entry) a

/-- What the alert tells in the course of steps. -/
def told (a : Alert) : List Step → List Firing
  | [] => []
  | s :: steps =>
    (if a.fires s.now s.entry then [a.firing s.now s.entry] else []) ++ (a.pass s.now s.entry).told steps

/-- The time `t` is not within the cooldown that starts at `s`. -/
def Spaced (a : Alert) (s t : Timestamp) : Prop := ∃ finish, a.cooldownEnd? s = some finish ∧ finish ≤ t

theorem Spaced.le {a : Alert} {s t : Timestamp} (h : a.Spaced s t) : s ≤ t := by
  obtain ⟨finish, hfinish, hle⟩ := h
  exact Timestamp.le_trans (Timestamp.le_of_addMinutes? hfinish) hle

theorem Spaced.trans_le {a : Alert} {s t u : Timestamp} (h : a.Spaced s t) (hle : t ≤ u) : a.Spaced s u := by
  obtain ⟨finish, hfinish, hle'⟩ := h
  exact ⟨finish, hfinish, Timestamp.le_trans hle' hle⟩

/-- An alert that fires is not within the cooldown of its mark. -/
theorem spaced_of_fires {a : Alert} {now last : Timestamp} {e : Kpi.HistoryEntry} (hfires : a.fires now e = true)
    (hlast : a.lastTriggeredAt = some last) : a.Spaced last now := by
  have hcool := isCooling?_of_fires hfires
  rw [isCooling?, hlast] at hcool
  obtain ⟨finish, hfinish, hnot⟩ := Option.map_eq_some_iff.mp hcool
  exact ⟨finish, hfinish, Timestamp.le_of_not_lt (of_decide_eq_false hnot)⟩

/-- What a history makes of an alert that has fired at the given times. -/
structure Kept (a : Alert) (times : List Timestamp) (a' : Alert) : Prop where
  /-- The firings are a cooldown apart from each other and from the first mark. -/
  spaced : (a.lastTriggeredAt.toList ++ times).Pairwise a.Spaced
  /-- The mark is the time of the last firing, or the first mark if there was none. -/
  marked : a'.lastTriggeredAt = (a.lastTriggeredAt.toList ++ times).getLast?
  /-- The mark has not moved to an earlier time. -/
  forward : ∀ last, a.lastTriggeredAt = some last → ∃ last', a'.lastTriggeredAt = some last' ∧ last ≤ last'
  /-- Nothing but the mark has changed. -/
  unchanged : a' = { a with lastTriggeredAt := a'.lastTriggeredAt }

theorem Kept.refl (a : Alert) : a.Kept [] a := by
  refine ⟨?_, ?_, fun last hlast => ⟨last, hlast, Timestamp.le_refl last⟩, rfl⟩
  · cases a.lastTriggeredAt <;> simp
  · cases a.lastTriggeredAt <;> rfl

/-- A firing in front of the others, a cooldown after the first mark. -/
theorem Kept.cons_of_fires {a a' : Alert} {times : List Timestamp} {now : Timestamp} {e : Kpi.HistoryEntry}
    (hfires : a.fires now e = true) (h : (a.markTriggered now).Kept times a') : a.Kept (now :: times) a' := by
  have hspaced : (now :: times).Pairwise a.Spaced := h.spaced
  refine ⟨?_, ?_, fun last hlast => ?_, h.unchanged⟩
  · cases hlast : a.lastTriggeredAt with
    | none => exact hspaced
    | some last =>
        have hfirst := spaced_of_fires hfires hlast
        refine List.pairwise_cons.mpr ⟨fun t ht => ?_, hspaced⟩
        rcases List.mem_cons.mp ht with rfl | ht
        · exact hfirst
        · exact hfirst.trans_le (List.rel_of_pairwise_cons hspaced ht).le
  · rw [h.marked, List.getLast?_append_cons]
    rfl
  · obtain ⟨last', hlast', hle⟩ := h.forward now rfl
    exact ⟨last', hlast', Timestamp.le_trans (spaced_of_fires hfires hlast).le hle⟩

/-- However the times of the steps move, the firings of an alert are a cooldown apart. -/
theorem kept_afterSteps (a : Alert) (steps : List Step) :
    a.Kept ((a.told steps).map (·.triggeredAt)) (a.afterSteps steps) := by
  induction steps generalizing a with
  | nil => exact .refl a
  | cons s steps ih =>
      rw [told, afterSteps, List.foldl_cons]
      cases hfires : a.fires s.now s.entry with
      | true =>
          rw [pass_of_fires _ hfires]
          exact .cons_of_fires hfires (ih (a.markTriggered s.now))
      | false =>
          rw [pass_of_not_fires _ hfires]
          exact ih a

theorem afterSteps_append (a : Alert) (steps steps' : List Step) :
    a.afterSteps (steps ++ steps') = (a.afterSteps steps).afterSteps steps' := List.foldl_append

/-! ### Lists of alerts -/

/-- The alerts after steps. -/
def alertsAfter (alerts : List Alert) (steps : List Step) : List Alert :=
  steps.foldl (fun alerts s => alerts.map fun a => a.pass s.now s.entry) alerts

/-- A firing, and the place of its alert in the list. -/
structure Placed where
  place : Nat
  firing : Firing

/-- The firings of a step, if the first alert has the given place. -/
def placedStep (s : Step) (place : Nat) : List Alert → List Placed
  | [] => []
  | a :: alerts =>
    (if a.fires s.now s.entry then [⟨place, a.firing s.now s.entry⟩] else []) ++ placedStep s (place + 1) alerts

/-- The firings in the course of steps, in their order. -/
def placed (alerts : List Alert) : List Step → List Placed
  | [] => []
  | s :: steps => placedStep s 0 alerts ++ placed (alerts.map fun a => a.pass s.now s.entry) steps

/-- When the alert at a place has fired. -/
def timesAt (place : Nat) (firings : List Placed) : List Timestamp :=
  (firings.filter (·.place = place)).map (·.firing.triggeredAt)

theorem alertsAfter_eq (alerts : List Alert) (steps : List Step) :
    alertsAfter alerts steps = alerts.map fun a => a.afterSteps steps := by
  induction steps generalizing alerts with
  | nil => exact (List.map_id alerts).symm
  | cons s steps ih =>
      rw [alertsAfter, List.foldl_cons]
      refine (ih _).trans ?_
      rw [List.map_map]
      rfl

/-- Places are counted from that of the first alert. -/
theorem le_place_of_mem_placedStep {s : Step} {place : Nat} {alerts : List Alert} :
    ∀ p ∈ placedStep s place alerts, place ≤ p.place := by
  induction alerts generalizing place with
  | nil => exact List.forall_mem_nil _
  | cons a alerts ih =>
      intro p hp
      rcases List.mem_append.mp hp with hp | hp
      · split at hp
        · rw [List.mem_singleton.mp hp]
        · cases hp
      · exact Nat.le_of_succ_le (ih p hp)

/-- At each place a step makes the alert there fire, or nothing. -/
theorem timesAt_placedStep (s : Step) (place : Nat) {alerts : List Alert} {i : Nat} {a : Alert}
    (h : alerts[i]? = some a) :
    timesAt (place + i) (placedStep s place alerts) = if a.fires s.now s.entry then [s.now] else [] := by
  unfold timesAt
  induction alerts generalizing place i with
  | nil => cases h
  | cons a' alerts ih =>
      rw [placedStep, List.filter_append, List.map_append]
      cases i with
      | zero =>
          obtain rfl : a' = a := Option.some.inj h
          have hothers : (placedStep s (place + 1) alerts).filter (·.place = place + 0) = [] := by
            rw [List.filter_eq_nil_iff]
            intro p hp
            have := le_place_of_mem_placedStep p hp
            rw [decide_eq_true_eq]
            omega
          rw [hothers]
          split <;> simp [firing]
      | succ i =>
          have hplace : place + (i + 1) = place + 1 + i := by omega
          have hothers : (if a'.fires s.now s.entry then [⟨place, a'.firing s.now s.entry⟩] else [] : List Placed).filter
              (·.place = place + 1 + i) = [] := by
            rw [List.filter_eq_nil_iff]
            intro p hp
            split at hp
            · obtain rfl := List.mem_singleton.mp hp
              rw [decide_eq_true_eq]
              dsimp only
              omega
            · cases hp
          rw [hplace, hothers, ih (place + 1) h]
          rfl

/-- An alert fires in a list when it would fire by itself. -/
theorem timesAt_placed {alerts : List Alert} {i : Nat} {a : Alert} (h : alerts[i]? = some a) (steps : List Step) :
    timesAt i (placed alerts steps) = (a.told steps).map (·.triggeredAt) := by
  induction steps generalizing alerts a with
  | nil => rfl
  | cons s steps ih =>
      have hlater : (alerts.map fun a => a.pass s.now s.entry)[i]? = some (a.pass s.now s.entry) := by
        rw [List.getElem?_map, h]
        rfl
      have hstep := timesAt_placedStep s 0 h
      have hlater := ih hlater
      unfold timesAt at *
      rw [Nat.zero_add] at hstep
      rw [placed, List.filter_append, List.map_append, hstep, hlater, told, List.map_append]
      split <;> rfl

/-! ### Calls -/

/-- The alerts after calls and the firings that the calls answer, unless one of them breaks off. -/
def answers? (alerts : List Alert) : List Call → Option (List Alert × List Firing)
  | [] => some (alerts, [])
  | c :: calls => do
    let (alerts, fired) ← check? c.now alerts c.history
    let (alerts, later) ← answers? alerts calls
    return (alerts, fired ++ later)

theorem map_firing_placedStep (s : Step) (place : Nat) (alerts : List Alert) :
    (placedStep s place alerts).map (·.firing) =
      (alerts.filter fun a => a.fires s.now s.entry).map fun a => a.firing s.now s.entry := by
  induction alerts generalizing place with
  | nil => rfl
  | cons a alerts ih =>
      rw [placedStep, List.map_append, ih, List.filter_cons]
      cases a.fires s.now s.entry with
      | true => rfl
      | false => rfl

theorem placed_append (alerts : List Alert) (steps steps' : List Step) :
    placed alerts (steps ++ steps') = placed alerts steps ++ placed (alertsAfter alerts steps) steps' := by
  induction steps generalizing alerts with
  | nil => rfl
  | cons s steps ih => rw [List.cons_append, placed, ih, placed, List.append_assoc]; rfl

/-- The steps of a call tell its firings. -/
theorem firings_eq (c : Call) (alerts : List Alert) :
    firings c.now alerts c.history = (placed alerts c.steps).map (·.firing) := by
  obtain ⟨now, history⟩ := c
  rw [Call.steps]
  dsimp only
  induction history generalizing alerts with
  | nil => rfl
  | cons e history ih => rw [List.map_cons, placed, List.map_append, map_firing_placedStep, firings, ih]

theorem alertsAfter_steps (c : Call) (alerts : List Alert) :
    alertsAfter alerts c.steps = alerts.map fun a => c.history.foldl (pass c.now) a := by
  rw [alertsAfter_eq]
  refine List.map_congr_left fun a _ => ?_
  rw [afterSteps, Call.steps, List.foldl_map]

/-- A call that does not break off is its steps. -/
theorem eq_of_check?_eq_some {c : Call} {alerts after : List Alert} {fired : List Firing}
    (h : check? c.now alerts c.history = some (after, fired)) :
    after = alertsAfter alerts c.steps ∧ fired = (placed alerts c.steps).map (·.firing) := by
  have hwhole : (check c.now alerts c.history).isWhole = true := by
    by_contra hbroken
    rw [check?, if_neg hbroken] at h
    cases h
  rw [check?_eq_some c.now hwhole, Option.some.injEq, Prod.mk.injEq] at h
  rw [alertsAfter_steps, ← firings_eq]
  exact ⟨h.1.symm, h.2.symm⟩

/-- Calls are the steps of all of them. -/
theorem eq_of_answers?_eq_some {alerts after : List Alert} {calls : List Call} {fired : List Firing}
    (h : answers? alerts calls = some (after, fired)) :
    after = alertsAfter alerts (calls.flatMap Call.steps) ∧
      fired = (placed alerts (calls.flatMap Call.steps)).map (·.firing) := by
  induction calls generalizing alerts after fired with
  | nil =>
      obtain ⟨rfl, rfl⟩ := Prod.mk.inj (Option.some.inj h)
      exact ⟨rfl, rfl⟩
  | cons c calls ih =>
      obtain ⟨⟨between, first⟩, hfirst, hrest⟩ := Option.bind_eq_some_iff.mp h
      obtain ⟨⟨last, later⟩, hlater, hlast⟩ := Option.bind_eq_some_iff.mp hrest
      obtain ⟨rfl, rfl⟩ := Prod.mk.inj (Option.some.inj hlast)
      obtain ⟨rfl, rfl⟩ := eq_of_check?_eq_some hfirst
      obtain ⟨rfl, rfl⟩ := ih hlater
      rw [List.flatMap_cons, placed_append, List.map_append, alertsAfter, alertsAfter, alertsAfter, List.foldl_append]
      exact ⟨rfl, rfl⟩

/-- Whatever the times and the entries of the calls, their answers are those of their steps unless a call breaks
off, and every alert keeps its cooldown, from the start to any step and from any step to the end. -/
theorem cooldowns_kept (alerts : List Alert) (calls : List Call) :
    (∀ after fired, answers? alerts calls = some (after, fired) →
      after = alertsAfter alerts (calls.flatMap Call.steps) ∧
        fired = (placed alerts (calls.flatMap Call.steps)).map (·.firing)) ∧
      ∀ before later, calls.flatMap Call.steps = before ++ later → ∀ i : Fin alerts.length,
        ∃ a b, (alertsAfter alerts before)[i]? = some a ∧ (alertsAfter alerts (calls.flatMap Call.steps))[i]? = some b ∧
          alerts[i].Kept (timesAt i (placed alerts before)) a ∧
            a.Kept (timesAt i (placed (alertsAfter alerts before) later)) b := by
  refine ⟨fun after fired => eq_of_answers?_eq_some, fun before later hsteps i => ?_⟩
  have hi : alerts[i.val]? = some alerts[i] := List.getElem?_eq_getElem i.isLt
  have hbefore : (alertsAfter alerts before)[i.val]? = some (alerts[i].afterSteps before) := by
    rw [alertsAfter_eq, List.getElem?_map, hi]
    rfl
  refine ⟨alerts[i].afterSteps before, (alerts[i].afterSteps before).afterSteps later, hbefore, ?_, ?_, ?_⟩
  · rw [alertsAfter_eq, hsteps, ← afterSteps_append]
    show (alerts.map _)[i.val]? = _
    rw [List.getElem?_map, hi]
    rfl
  · rw [timesAt_placed hi]
    exact kept_afterSteps _ before
  · rw [timesAt_placed hbefore]
    exact kept_afterSteps _ later

/-- An alert fires at noon for the first of two entries, is silent when the clock is back at eleven, and fires
again when its hour is over. -/
theorem cooldowns_kept_of_clock_set_back :
    let eleven : Timestamp := ⟨39600, 0, by decide, by decide⟩
    let noon : Timestamp := ⟨43200, 0, by decide, by decide⟩
    let one : Timestamp := ⟨46800, 0, by decide, by decide⟩
    let alert := Alert.new ⟨1⟩ "low" "Q" .lessThan 0.5 .warning
    let entry := Kpi.HistoryEntry.new ⟨2⟩ noon "b" "a" "Q" 0.25
    let calls : List Call := [⟨noon, [entry, entry]⟩, ⟨eleven, [entry]⟩, ⟨one, [entry]⟩]
    let before : List Step := [⟨noon, entry⟩, ⟨noon, entry⟩]
    let later : List Step := [⟨eleven, entry⟩, ⟨one, entry⟩]
    (∃ after fired, answers? [alert] calls = some (after, fired) ∧ fired.map (·.triggeredAt) = [noon, one] ∧
        after = alertsAfter [alert] (calls.flatMap Call.steps) ∧
        fired = (placed [alert] (calls.flatMap Call.steps)).map (·.firing)) ∧
      calls.flatMap Call.steps = before ++ later ∧
      ∃ a b, (alertsAfter [alert] before)[0]? = some a ∧
        (alertsAfter [alert] (calls.flatMap Call.steps))[0]? = some b ∧
        alert.Kept (timesAt 0 (placed [alert] before)) a ∧
          a.Kept (timesAt 0 (placed (alertsAfter [alert] before) later)) b := by
  intro eleven noon one alert entry calls before later
  obtain ⟨hanswers, hkept⟩ := cooldowns_kept [alert] calls
  have htimes : (answers? [alert] calls).map (fun answered => answered.2.map (·.triggeredAt)) = some [noon, one] := by
    decide +kernel
  obtain ⟨⟨after, fired⟩, hcalls, hfired⟩ := Option.map_eq_some_iff.mp htimes
  exact ⟨⟨after, fired, hcalls, hfired, hanswers after fired hcalls⟩, rfl, hkept before later rfl 0⟩

end Scorecard.Alert
