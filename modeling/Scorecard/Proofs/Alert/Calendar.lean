import Scorecard.Proofs.Alert.Checking

/-!
Checks that break off. A check that comes upon a cooldown with an end beyond the calendar breaks off, and every
other is carried through. Which of the two it is each alert decides by itself: the check breaks off on the mark
that the alert came with, at the first entry that the alert watches, or on the mark of the check itself, at an
entry that the alert watches after it has fired.
-/
namespace Scorecard.Alert

variable (now : Timestamp)

/-- Whether the alert fires for the entry hangs on an end beyond the calendar. -/
structure LooksBeyond (a : Alert) (e : Kpi.HistoryEntry) : Prop where
  enabled : a.enabled = true
  watches : a.watches e = true
  marked : ∃ last, a.lastTriggeredAt = some last ∧ a.cooldownEnd? last = none

/-- The last day of the calendar, at its start. -/
def lastDay : Timestamp := .ofSecond (lastSecond - 86399) (by decide)

/-! ### One entry -/

theorem isCooling?_eq_none_iff {a : Alert} :
    a.isCooling? now = none ↔ ∃ last, a.lastTriggeredAt = some last ∧ a.cooldownEnd? last = none := by
  rw [isCooling?]
  cases a.lastTriggeredAt with
  | none => simp
  | some last => simp

theorem fires?_eq_none_iff {a : Alert} {e : Kpi.HistoryEntry} : a.fires? now e = none ↔ a.LooksBeyond e := by
  rw [fires?]
  constructor
  · intro h
    split at h
    · next hentry =>
        obtain ⟨henabled, hwatches⟩ := (Bool.and_eq_true _ _).mp hentry
        exact ⟨henabled, hwatches, (isCooling?_eq_none_iff now).mp (Option.map_eq_none_iff.mp h)⟩
    · cases h
  · intro h
    rw [h.enabled, h.watches, (isCooling?_eq_none_iff now).mpr h.marked]
    rfl

theorem isWhole_checkEntry_iff_forall (e : Kpi.HistoryEntry) (alerts : List Alert) :
    (checkEntry now e alerts).isWhole = true ↔ ∀ a ∈ alerts, ¬a.LooksBeyond e := by
  rw [isWhole_checkEntry_iff]
  exact forall₂_congr fun a _ => not_congr (fires?_eq_none_iff now)

/-! ### A history -/

/-- The check of the alert against the history breaks off. -/
inductive Overruns (history : List Kpi.HistoryEntry) (a : Alert) : Prop
  /-- On the mark that the alert came with. -/
  | early {e : Kpi.HistoryEntry} (hentry : e ∈ history) (hbeyond : a.LooksBeyond e)
  /-- On the mark of the check itself. -/
  | late {before after : List Kpi.HistoryEntry} {e later : Kpi.HistoryEntry} (hhistory : history = before ++ e :: after)
      (hfires : a.fires now e = true) (hlater : later ∈ after) (hwatches : a.watches later = true)
      (hend : a.cooldownEnd? now = none)

variable {now}

/-- An alert that fires is enabled, has found its cooldown to be over, and meets the entry. -/
theorem fires_eq_true_iff {a : Alert} {e : Kpi.HistoryEntry} :
    a.fires now e = true ↔
      a.enabled = true ∧ a.watches e = true ∧ a.isCooling? now = some false ∧ a.holds e.value = true := by
  rw [fires, beq_iff_eq, fires?, ← and_assoc, ← Bool.and_eq_true]
  cases a.enabled && a.watches e with
  | false => simp
  | true =>
      cases a.isCooling? now with
      | none => simp
      | some cooling => cases cooling <;> simp

theorem enabled_of_fires {a : Alert} {e : Kpi.HistoryEntry} (h : a.fires now e = true) : a.enabled = true :=
  (fires_eq_true_iff.mp h).1

theorem isCooling?_of_fires {a : Alert} {e : Kpi.HistoryEntry} (h : a.fires now e = true) :
    a.isCooling? now = some false :=
  (fires_eq_true_iff.mp h).2.2.1

theorem not_looksBeyond_of_fires {a : Alert} {e e' : Kpi.HistoryEntry} (h : a.fires now e = true) : ¬a.LooksBeyond e' := by
  intro hbeyond
  have hcooling := (isCooling?_eq_none_iff now).mpr hbeyond.marked
  rw [isCooling?_of_fires h] at hcooling
  cases hcooling

theorem overruns_nil {a : Alert} : ¬a.Overruns now [] := by
  rintro (⟨hentry, -⟩ | ⟨hhistory, -, -, -, -⟩)
  · cases hentry
  · exact absurd hhistory (by simp)

/-- Of an alert that has been marked only its mark matters. -/
theorem overruns_markTriggered_iff {a : Alert} {history : List Kpi.HistoryEntry} (henabled : a.enabled = true) :
    (a.markTriggered now).Overruns now history ↔
      (∃ later ∈ history, a.watches later = true) ∧ a.cooldownEnd? now = none := by
  constructor
  · rintro (⟨hentry, -, hwatches, last, hlast, hend⟩ | ⟨hhistory, hfires, -, -, hend⟩)
    · obtain rfl : now = last := Option.some.inj hlast
      exact ⟨⟨_, hentry, hwatches⟩, hend⟩
    · have hcooling := (isCooling?_eq_none_iff now).mpr ⟨now, rfl, hend⟩
      rw [isCooling?_of_fires hfires] at hcooling
      cases hcooling
  · rintro ⟨⟨later, hlater, hwatches⟩, hend⟩
    exact .early hlater ⟨henabled, hwatches, now, rfl, hend⟩

/-- Of an alert that fires for the first entry its new mark matters for the others. -/
theorem overruns_cons_iff_of_fires {a : Alert} {e : Kpi.HistoryEntry} {history : List Kpi.HistoryEntry}
    (h : a.fires now e = true) :
    a.Overruns now (e :: history) ↔ (∃ later ∈ history, a.watches later = true) ∧ a.cooldownEnd? now = none := by
  constructor
  · rintro (⟨-, hbeyond⟩ | @⟨before, after, e', later, hhistory, -, hlater, hwatches, hend⟩)
    · exact absurd hbeyond (not_looksBeyond_of_fires h)
    · refine ⟨⟨later, ?_, hwatches⟩, hend⟩
      -- what comes after an entry is not the first
      cases before with
      | nil =>
          obtain ⟨-, rfl⟩ := List.cons.inj hhistory
          exact hlater
      | cons e'' before =>
          obtain ⟨-, rfl⟩ := List.cons.inj hhistory
          exact List.mem_append_right _ (List.mem_cons_of_mem _ hlater)
  · rintro ⟨⟨later, hlater, hwatches⟩, hend⟩
    have hhistory : e :: history = [] ++ e :: history := rfl
    exact .late hhistory h hlater hwatches hend

theorem overruns_cons_iff_of_not_fires {a : Alert} {e : Kpi.HistoryEntry} {history : List Kpi.HistoryEntry}
    (h : a.fires now e = false) : a.Overruns now (e :: history) ↔ a.LooksBeyond e ∨ a.Overruns now history := by
  constructor
  · rintro (⟨hentry, hbeyond⟩ | @⟨before, after, e', later, hhistory, hfires, hlater, hwatches, hend⟩)
    · rcases List.mem_cons.mp hentry with rfl | hentry
      · exact .inl hbeyond
      · exact .inr (.early hentry hbeyond)
    · cases before with
      | nil =>
          obtain ⟨rfl, -⟩ := List.cons.inj hhistory
          rw [h] at hfires
          cases hfires
      | cons e'' before =>
          obtain ⟨-, rfl⟩ := List.cons.inj hhistory
          exact .inr (.late rfl hfires hlater hwatches hend)
  · rintro (hbeyond | ⟨hentry, hbeyond⟩ | ⟨hhistory, hfires, hlater, hwatches, hend⟩)
    · exact .early List.mem_cons_self hbeyond
    · exact .early (List.mem_cons_of_mem _ hentry) hbeyond
    · have hhistory' := (congrArg (e :: ·) hhistory).trans (List.cons_append ..).symm
      exact .late hhistory' hfires hlater hwatches hend

/-- The entries are met one after the other. -/
theorem overruns_cons_iff {a : Alert} {e : Kpi.HistoryEntry} {history : List Kpi.HistoryEntry} :
    a.Overruns now (e :: history) ↔ a.LooksBeyond e ∨ (a.pass now e).Overruns now history := by
  cases hfires : a.fires now e with
  | true =>
      rw [pass_of_fires now hfires, overruns_markTriggered_iff (enabled_of_fires hfires),
        or_iff_right (not_looksBeyond_of_fires hfires), overruns_cons_iff_of_fires hfires]
  | false => rw [pass_of_not_fires now hfires, overruns_cons_iff_of_not_fires hfires]

variable (now)

/-- A check is carried through if no alert breaks it off. -/
theorem isWhole_check_iff (alerts : List Alert) (history : List Kpi.HistoryEntry) :
    (check now alerts history).isWhole = true ↔ ∀ a ∈ alerts, ¬a.Overruns now history := by
  induction history generalizing alerts with
  | nil => exact iff_of_true rfl fun a _ => overruns_nil
  | cons e history ih =>
      simp only [overruns_cons_iff, not_or, forall₂_and]
      rw [check, ← isWhole_checkEntry_iff_forall]
      by_cases hentry : (checkEntry now e alerts).isWhole = true
      · have hanswers := (isWhole_checkEntry_iff now e alerts).mp hentry
        rw [if_pos hentry, and_iff_right hentry, checkEntry_eq now hanswers]
        exact (ih _).trans List.forall_mem_map
      · rw [if_neg hentry]
        exact iff_of_false hentry fun h => hentry h.1

theorem isWhole_check_eq_false_iff (alerts : List Alert) (history : List Kpi.HistoryEntry) :
    (check now alerts history).isWhole = false ↔ ∃ a ∈ alerts, a.Overruns now history := by
  rw [← Bool.not_eq_true, isWhole_check_iff]
  push Not
  rfl

end Scorecard.Alert
