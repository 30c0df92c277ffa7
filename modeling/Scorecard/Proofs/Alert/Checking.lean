import Mathlib
import Scorecard.Alert.Firing

/-!
What checking does to one alert. The alerts do not look at each other: a check that is carried through takes
each of them through the entries by itself. An alert is left alone by the entries until the first one that it
fires for. From then on it carries the time of the check, and nothing else about it has changed. A check that
breaks off has done a part of this.
-/
namespace Scorecard.Alert

variable (now : Timestamp)

/-- Whether the alert fires for the entry. It has to have an answer for that. -/
def fires (a : Alert) (e : Kpi.HistoryEntry) : Bool := a.fires? now e == some true

theorem fires_of_fires?_eq_some {a : Alert} {e : Kpi.HistoryEntry} {fires : Bool} (h : a.fires? now e = some fires) :
    a.fires now e = fires := by
  rw [Alert.fires, h]
  cases fires <;> rfl

/-- The alert after one entry. -/
def pass (a : Alert) (e : Kpi.HistoryEntry) : Alert := if a.fires now e then a.markTriggered now else a

theorem pass_of_fires {a : Alert} {e : Kpi.HistoryEntry} (h : a.fires now e = true) :
    a.pass now e = a.markTriggered now := if_pos h

theorem pass_of_not_fires {a : Alert} {e : Kpi.HistoryEntry} (h : a.fires now e = false) : a.pass now e = a :=
  if_neg (by rw [h]; exact Bool.false_ne_true)

/-! ### One entry -/

/-- A check against one entry is carried through if every alert has an answer. -/
theorem isWhole_checkEntry_iff (e : Kpi.HistoryEntry) (alerts : List Alert) :
    (checkEntry now e alerts).isWhole = true ↔ ∀ a ∈ alerts, a.fires? now e ≠ none := by
  induction alerts with
  | nil => simp [checkEntry]
  | cons a alerts ih =>
      rw [checkEntry, List.forall_mem_cons, ← ih]
      cases a.fires? now e with
      | none => simp
      | some fires => cases fires <;> simp

theorem checkEntry_eq {e : Kpi.HistoryEntry} {alerts : List Alert} (h : ∀ a ∈ alerts, a.fires? now e ≠ none) :
    checkEntry now e alerts =
      ⟨alerts.map fun a => a.pass now e, (alerts.filter fun a => a.fires now e).map fun a => a.firing now e, true⟩ := by
  induction alerts with
  | nil => rfl
  | cons a alerts ih =>
      obtain ⟨ha, halerts⟩ := List.forall_mem_cons.mp h
      obtain ⟨fires, hfires⟩ := Option.ne_none_iff_exists'.mp ha
      have hfires' := fires_of_fires?_eq_some now hfires
      rw [checkEntry, hfires, ih halerts, List.map_cons, List.filter_cons, hfires']
      cases fires with
      | true => rw [pass_of_fires now hfires']; rfl
      | false => rw [pass_of_not_fires now hfires']; rfl

/-- An alert as it was, or with a new mark. -/
def SameOrMarked (a a' : Alert) : Prop := a' = a ∨ a' = a.markTriggered now

theorem sameOrMarked_checkEntry (e : Kpi.HistoryEntry) {before alerts : List Alert}
    (h : List.Forall₂ (SameOrMarked now) before alerts) :
    List.Forall₂ (SameOrMarked now) before (checkEntry now e alerts).alerts := by
  induction h with
  | nil => exact .nil
  | @cons a a' before alerts ha halerts ih =>
      rw [checkEntry]
      cases a'.fires? now e with
      | none => exact .cons ha halerts
      | some fires =>
          cases fires with
          | true =>
              refine .cons (.inr ?_) ih
              rcases ha with rfl | rfl <;> rfl
          | false => exact .cons ha ih

/-! ### A history -/

/-- The firings of alerts for entries, by entry and then by alert. -/
def firings (alerts : List Alert) : List Kpi.HistoryEntry → List Firing
  | [] => []
  | e :: es =>
    ((alerts.filter fun a => a.fires now e).map fun a => a.firing now e) ++
      firings (alerts.map fun a => a.pass now e) es

theorem check_eq {alerts : List Alert} {history : List Kpi.HistoryEntry}
    (h : (check now alerts history).isWhole = true) :
    check now alerts history =
      ⟨alerts.map fun a => history.foldl (pass now) a, firings now alerts history, true⟩ := by
  induction history generalizing alerts with
  | nil => exact congrArg₂ (Check.mk · [] ·) (List.map_id alerts).symm rfl
  | cons e history ih =>
      rw [check] at h ⊢
      by_cases hentry : (checkEntry now e alerts).isWhole = true
      · rw [if_pos hentry] at h ⊢
        rw [checkEntry_eq now ((isWhole_checkEntry_iff now e alerts).mp hentry)] at h ⊢
        rw [ih h, List.map_map]
        rfl
      · rw [if_neg hentry] at h
        exact absurd h hentry

theorem check?_eq_some {alerts : List Alert} {history : List Kpi.HistoryEntry}
    (h : (check now alerts history).isWhole = true) :
    check? now alerts history =
      some (alerts.map fun a => history.foldl (pass now) a, firings now alerts history) := by
  rw [check?, check_eq now h]
  rfl

/-- An alert that fires for an entry, as the entries before have left it, is told. -/
theorem firing_mem_firings {a : Alert} {alerts : List Alert} {e : Kpi.HistoryEntry} (before after : List Kpi.HistoryEntry)
    (ha : a ∈ alerts) (hfires : (before.foldl (pass now) a).fires now e = true) :
    (before.foldl (pass now) a).firing now e ∈ firings now alerts (before ++ e :: after) := by
  induction before generalizing a alerts with
  | nil =>
      rw [List.nil_append, firings]
      apply List.mem_append_left
      exact List.mem_map_of_mem (List.mem_filter.mpr ⟨ha, hfires⟩)
  | cons e' before ih =>
      rw [List.cons_append, firings]
      apply List.mem_append_right
      exact ih (List.mem_map_of_mem ha) hfires

/-- A mark is written over by the same mark. -/
theorem foldl_pass_markTriggered (a : Alert) (history : List Kpi.HistoryEntry) :
    history.foldl (pass now) (a.markTriggered now) = a.markTriggered now := by
  induction history with
  | nil => rfl
  | cons e history ih =>
      have hpass : (a.markTriggered now).pass now e = a.markTriggered now := by
        rw [pass]
        split <;> rfl
      rw [List.foldl_cons, hpass, ih]

/-- An alert goes through the entries as it is until one makes it fire. -/
theorem foldl_pass (a : Alert) (history : List Kpi.HistoryEntry) :
    history.foldl (pass now) a = a ∨
      ∃ before e after, history = before ++ e :: after ∧ before.foldl (pass now) a = a ∧ a.fires now e = true ∧
        history.foldl (pass now) a = a.markTriggered now := by
  induction history with
  | nil => exact .inl rfl
  | cons e history ih =>
      rw [List.foldl_cons]
      cases hfires : a.fires now e with
      | true =>
          rw [pass_of_fires now hfires]
          exact .inr ⟨[], e, history, rfl, rfl, hfires, foldl_pass_markTriggered now a history⟩
      | false =>
          rw [pass_of_not_fires now hfires]
          refine ih.imp_right ?_
          rintro ⟨before, e', after, rfl, hbefore, hfires', hmarked⟩
          refine ⟨e :: before, e', after, rfl, ?_, hfires', hmarked⟩
          rw [List.foldl_cons, pass_of_not_fires now hfires, hbefore]

/-- What may become of an alert that is checked. It is left as it was, or it carries the time of the
check, and then it fires for an entry of the history and is told with that entry. -/
inductive Checked (history : List Kpi.HistoryEntry) (firings : List Firing) (a : Alert) : Alert → Prop
  | quiet : Checked history firings a a
  | fired {e : Kpi.HistoryEntry} (hentry : e ∈ history) (hfires : a.fires? now e = some true)
      (htold : a.firing now e ∈ firings) : Checked history firings a (a.markTriggered now)

/-- A check that is carried through leaves each alert in its place, and marks those only that it tells. -/
theorem checked_check {alerts : List Alert} {history : List Kpi.HistoryEntry}
    (h : (check now alerts history).isWhole = true) :
    List.Forall₂ (Checked now history (check now alerts history).firings) alerts (check now alerts history).alerts := by
  rw [check_eq now h, List.forall₂_map_right_iff, List.forall₂_same]
  intro a ha
  rcases foldl_pass now a history with hquiet | ⟨before, e, after, rfl, hbefore, hfires, hmarked⟩
  · rw [hquiet]
    exact .quiet
  · have htold := firing_mem_firings now before after ha (hbefore.symm ▸ hfires)
    rw [hbefore] at htold
    rw [hmarked]
    exact .fired (List.mem_append_right _ List.mem_cons_self) (beq_iff_eq.mp hfires) htold

/-- However far a check comes, it leaves each alert in its place, and changes nothing but marks. -/
theorem sameOrMarked_check (history : List Kpi.HistoryEntry) {before alerts : List Alert}
    (h : List.Forall₂ (SameOrMarked now) before alerts) :
    List.Forall₂ (SameOrMarked now) before (check now alerts history).alerts := by
  induction history generalizing alerts with
  | nil => exact h
  | cons e history ih =>
      have hentry := sameOrMarked_checkEntry now e h
      rw [check]
      split
      · exact ih hentry
      · exact hentry

end Scorecard.Alert
