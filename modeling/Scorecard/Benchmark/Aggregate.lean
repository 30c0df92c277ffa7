import Scorecard.Benchmark.Trace

/-!
Aggregation: the mean of each metric over all measurements of all traces. Metrics are taken in
normal form, and measurements that are not finite are left out.
-/
namespace Scorecard

/-- A running sum and the number of its terms. -/
structure Tally where
  sum : Float
  count : Nat

namespace Tally

def none : Tally := ⟨0, 0⟩

def add (t : Tally) (x : Float) : Tally := ⟨t.sum + x, t.count + 1⟩

def mean (t : Tally) : Float := t.sum / t.count.toUInt64.toFloat

end Tally

/-- Adds a measurement to the tally of its metric. -/
def addMeasurement (tallies : Table Tally) (m : Measurement) : Table Tally :=
  if m.value.isFinite then
    let metric := Metric.normalize m.metric
    tallies.insert metric (((tallies.get? metric).getD .none).add m.value)
  else tallies

def tallies (traces : List Trace) : Table Tally := (traces.flatMap (·.measurements)).foldl addMeasurement ∅

def aggregate (traces : List Trace) : Table Float := (tallies traces).map Tally.mean

end Scorecard
