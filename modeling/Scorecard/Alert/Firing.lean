import Scorecard.Alert.Basic
import Scorecard.Journal.Basic

/-!
Firing alerts. The entries of a history are taken in order, and for each of them the rules in order.
A rule that fires is marked at once, so that its cooldown already holds for the entries that follow. A
check that comes upon a cooldown with an end beyond the calendar breaks off.
-/
namespace Scorecard.Alert

/-- A rule that has fired, with the score that made it fire. -/
structure Firing where
  alertId : Uuid
  alertName : String
  kpiName : String
  value : Float
  threshold : Float
  condition : Condition
  severity : Severity
  runId : Option Uuid
  triggeredAt : Timestamp

def firing (a : Alert) (now : Timestamp) (e : Kpi.HistoryEntry) : Firing :=
  { alertId := a.id, alertName := a.name, kpiName := e.kpiName, value := e.value, threshold := a.threshold,
    condition := a.condition, severity := a.severity, runId := e.runId, triggeredAt := now }

/-- What a check comes to: the rules as it leaves them and the firings, both up to where it breaks off if it is
not carried through. -/
structure Check where
  alerts : List Alert
  firings : List Firing
  isWhole : Bool

/-- Checks the rules against one entry, up to the first rule that has no answer. -/
def checkEntry (now : Timestamp) (e : Kpi.HistoryEntry) : List Alert → Check
  | [] => ⟨[], [], true⟩
  | a :: as =>
    match a.fires? now e with
    | none => ⟨a :: as, [], false⟩
    | some fires =>
      let rest := checkEntry now e as
      if fires then ⟨a.markTriggered now :: rest.alerts, a.firing now e :: rest.firings, rest.isWhole⟩
      else { rest with alerts := a :: rest.alerts }

/-- Checks the rules against all entries, unless it breaks off before. -/
def check (now : Timestamp) (alerts : List Alert) : List Kpi.HistoryEntry → Check
  | [] => ⟨alerts, [], true⟩
  | e :: es =>
    let first := checkEntry now e alerts
    if first.isWhole then
      let rest := check now first.alerts es
      { rest with firings := first.firings ++ rest.firings }
    else first

/-- The rules after a check and the firings, unless the check breaks off. -/
def check? (now : Timestamp) (alerts : List Alert) (history : List Kpi.HistoryEntry) :
    Option (List Alert × List Firing) :=
  let c := check now alerts history
  if c.isWhole then some (c.alerts, c.firings) else none

namespace Firing

def event (f : Firing) : Event := .alertTriggered f.alertName f.kpiName f.value f.threshold

def journal (fired : List Firing) : Journal := fired.map fun f => Journal.tell f.event

end Firing

end Scorecard.Alert
