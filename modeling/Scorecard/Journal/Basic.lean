import Scorecard.Journal.Event

/-!
Journals. What an action does besides giving its result is written down as a journal, the list of
the counters that it increments and the events that it emits, in order. So actions are functions,
and what they count and tell is part of what they return.
-/
namespace Scorecard

/-- One entry of a journal. An event may lie within the span of a run, which gives it a context. -/
inductive Entry where
  | count (counter : Counter)
  | event (event : Event) (inRun : Bool)

namespace Entry

def withinRun : Entry → Entry
  | .count c => .count c
  | .event e _ => .event e true

/-- The event of an entry, with whether it lies within a run. -/
def event? : Entry → Option (Event × Bool)
  | .count _ => none
  | .event e inRun => some (e, inRun)

def record (n : Counters) : Entry → Counters
  | .count c => n.increment c
  | .event .. => n

end Entry

abbrev Journal := List Entry

namespace Journal

/-- An event outside of any run. -/
def tell (e : Event) : Entry := .event e false

/-- The journal with its events moved into the span of a run. -/
def withinRun (j : Journal) : Journal := j.map Entry.withinRun

def events (j : Journal) : List (Event × Bool) := j.filterMap Entry.event?

/-- The counters after the journal. -/
def record (j : Journal) (n : Counters) : Counters := j.foldl Entry.record n

end Journal

end Scorecard
