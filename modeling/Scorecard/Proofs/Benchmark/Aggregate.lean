import Scorecard.Benchmark.Aggregate
import Scorecard.Proofs.Decimal.Exact
import Scorecard.Proofs.Metric.Name

/-!
Aggregated metrics are means. Under each metric the table holds what the measurements of that metric alone come to:
a measurement of another metric passes its entry by, so a run over all measurements is, seen from one metric, a run
over the finite values measured of it, in their order. The table therefore depends on these sequences only, and not
on how the measurements of different metrics are mixed, on the traces that they belong to, or on the spelling of
the metrics' names.
-/
namespace Scorecard

/-! ### Values of one metric -/

/-- Whether the measurement has a value for the mean of the metric. -/
def Measurement.counts (metric : String) (m : Measurement) : Bool :=
  m.value.isFinite && Metric.normalize m.metric == metric

theorem Measurement.counts_iff {metric : String} {m : Measurement} :
    m.counts metric = true ↔ m.value.isFinite = true ∧ Metric.normalize m.metric = metric := by
  rw [counts, Bool.and_eq_true, beq_iff_eq]

/-- All measurements of all traces, in their order. -/
def measurementsOf (traces : List Trace) : List Measurement := traces.flatMap (·.measurements)

/-- The finite values that have been measured of a metric, in their order. -/
def finiteValues (metric : String) (measurements : List Measurement) : List Float :=
  (measurements.filter (·.counts metric)).map (·.value)

theorem finiteValues_ne_nil_iff {metric : String} {measurements : List Measurement} :
    finiteValues metric measurements ≠ [] ↔
      ∃ m ∈ measurements, m.value.isFinite = true ∧ Metric.normalize m.metric = metric := by
  simp only [finiteValues, ne_eq, List.map_eq_nil_iff, List.filter_eq_nil_iff, not_forall, not_not, exists_prop,
    Measurement.counts_iff]

/-- The mean of values that are summed up from zero in their order. -/
def meanOf (values : List Float) : Float := values.foldl (· + ·) 0 / values.length.toUInt64.toFloat

theorem Tally.foldl_add (t : Tally) (values : List Float) :
    values.foldl add t = ⟨values.foldl (· + ·) t.sum, t.count + values.length⟩ := by
  induction values generalizing t with
  | nil => rfl
  | cons x values ih =>
      rw [List.foldl_cons, ih, List.foldl_cons, List.length_cons, add, Nat.add_right_comm, Nat.add_assoc]

theorem Tally.mean_foldl_add (values : List Float) : (values.foldl add none).mean = meanOf values := by
  rw [foldl_add, mean, none, Nat.zero_add, meanOf]

/-! ### One measurement, and all -/

theorem get?_addMeasurement_of_counts {metric : String} {m : Measurement} (h : m.counts metric = true)
    (tallies : Table Tally) :
    (addMeasurement tallies m).get? metric = some (((tallies.get? metric).getD .none).add m.value) := by
  obtain ⟨hfinite, rfl⟩ := Measurement.counts_iff.mp h
  rw [addMeasurement, if_pos hfinite, Table.get?_insert, if_pos rfl]

/-- What has no value for a metric passes its entry by. -/
theorem get?_addMeasurement_of_not_counts {metric : String} {m : Measurement} (h : ¬m.counts metric = true)
    (tallies : Table Tally) : (addMeasurement tallies m).get? metric = tallies.get? metric := by
  unfold addMeasurement
  split
  · next hfinite =>
      have hne : metric ≠ Metric.normalize m.metric := fun heq => h (Measurement.counts_iff.mpr ⟨hfinite, heq.symm⟩)
      rw [Table.get?_insert, if_neg hne]
  · rfl

/-- Seen from one metric, the measurements are the finite values measured of it. -/
theorem get?_foldl_addMeasurement (metric : String) (tallies : Table Tally) (measurements : List Measurement) :
    (measurements.foldl addMeasurement tallies).get? metric =
      if finiteValues metric measurements = [] then tallies.get? metric
      else some ((finiteValues metric measurements).foldl Tally.add ((tallies.get? metric).getD .none)) := by
  induction measurements generalizing tallies with
  | nil => rfl
  | cons m measurements ih =>
      rw [List.foldl_cons, ih]
      by_cases hcounts : m.counts metric = true
      · have hvalues : finiteValues metric (m :: measurements) = m.value :: finiteValues metric measurements := by
          rw [finiteValues, List.filter_cons_of_pos hcounts, List.map_cons, finiteValues]
        rw [hvalues, get?_addMeasurement_of_counts hcounts, if_neg (List.cons_ne_nil _ _), List.foldl_cons,
          Option.getD_some]
        split
        · next hnil => rw [hnil, List.foldl_nil]
        · rfl
      · have hvalues : finiteValues metric (m :: measurements) = finiteValues metric measurements := by
          rw [finiteValues, List.filter_cons_of_neg hcounts, finiteValues]
        rw [hvalues, get?_addMeasurement_of_not_counts hcounts]

/-- A metric with finite values has their mean, and no other metric has an entry. -/
theorem get?_aggregate (traces : List Trace) (metric : String) :
    (aggregate traces).get? metric =
      if finiteValues metric (measurementsOf traces) = [] then none
      else some (meanOf (finiteValues metric (measurementsOf traces))) := by
  rw [aggregate, Table.get?_map, tallies, get?_foldl_addMeasurement, Table.get?_empty, measurementsOf]
  split
  · rfl
  · rw [Option.map_some, Option.getD_none, Tally.mean_foldl_add]

theorem contains_aggregate_iff {traces : List Trace} {metric : String} :
    (aggregate traces).contains metric = true ↔ finiteValues metric (measurementsOf traces) ≠ [] := by
  rw [Table.contains, get?_aggregate]
  split <;> simp [*]

/-! ### What the means depend on -/

theorem aggregate_congr {traces traces' : List Trace}
    (h : ∀ metric, finiteValues metric (measurementsOf traces) = finiteValues metric (measurementsOf traces')) :
    aggregate traces = aggregate traces' := by
  refine Table.ext_get? fun metric => ?_
  rw [get?_aggregate, get?_aggregate, h]

theorem finiteValues_filter (metric : String) (measurements : List Measurement) :
    finiteValues metric (measurements.filter fun m => Metric.normalize m.metric == metric) =
      finiteValues metric measurements := by
  rw [finiteValues, List.filter_filter, finiteValues]
  refine congrArg (List.map _) (List.filter_congr fun m _ => ?_)
  rw [Measurement.counts, Bool.and_assoc, Bool.and_self]

/-- A measurement of the same value under another spelling of the metric's name. -/
structure Respelled (m m' : Measurement) : Prop where
  metric : Metric.SameCapitals m.metric m'.metric
  value : m.value = m'.value

theorem finiteValues_of_respelled {measurements measurements' : List Measurement}
    (h : List.Forall₂ Respelled measurements measurements') (metric : String) :
    finiteValues metric measurements = finiteValues metric measurements' := by
  induction h with
  | nil => rfl
  | @cons m m' _ _ hm _ ih =>
      have hcounts : m.counts metric = m'.counts metric := by
        rw [Measurement.counts, Measurement.counts, hm.metric.normalize_eq, hm.value]
      unfold finiteValues at ih ⊢
      rw [List.filter_cons, List.filter_cons, hcounts]
      split
      · rw [List.map_cons, List.map_cons, ih, hm.value]
      · exact ih

theorem finiteValues_eq_nil {measurements : List Measurement} (h : ∀ m ∈ measurements, m.value.isFinite = false)
    (metric : String) : finiteValues metric measurements = [] := by
  by_contra hne
  obtain ⟨m, hm, hfinite, -⟩ := finiteValues_ne_nil_iff.mp hne
  rw [h m hm] at hfinite
  cases hfinite

theorem finiteValues_append (metric : String) (measurements measurements' : List Measurement) :
    finiteValues metric (measurements ++ measurements') =
      finiteValues metric measurements ++ finiteValues metric measurements' := by
  rw [finiteValues, List.filter_append, List.map_append, finiteValues, finiteValues]

theorem measurementsOf_append (traces traces' : List Trace) :
    measurementsOf (traces ++ traces') = measurementsOf traces ++ measurementsOf traces' :=
  List.flatMap_append ..

/-- The table holds the mean of each metric: an entry for each metric with a finite value, and in it the values summed
up in their order and divided by their number, which is not zero and which the divisor is exactly. -/
structure HoldsMeans (traces : List Trace) : Prop where
  metrics (metric : String) : (aggregate traces).contains metric = true ↔
    ∃ t ∈ traces, ∃ m ∈ t.measurements, m.value.isFinite = true ∧ Metric.normalize m.metric = metric
  means {metric : String} {x : Float} (h : (aggregate traces).get? metric = some x) :
    ∃ values divisor, values = finiteValues metric (measurementsOf traces) ∧ values.length ≠ 0 ∧
      divisor.isFinite = true ∧ Decimal.value divisor = values.length ∧ x = values.foldl (· + ·) 0.0 / divisor

/-- The table depends on the finite values of each metric and on their order, and so on nothing else: not on the traces
that hold the measurements, on how measurements of different metrics are mixed, on the spelling of the names, or on
traces that have no finite value. -/
structure DependsOnValues (traces : List Trace) : Prop where
  values {traces' : List Trace}
    (h : ∀ metric, finiteValues metric (measurementsOf traces) = finiteValues metric (measurementsOf traces')) :
    aggregate traces = aggregate traces'
  moved {traces' : List Trace} (h : measurementsOf traces = measurementsOf traces') : aggregate traces = aggregate traces'
  mixed {traces' : List Trace}
    (h : ∀ metric, (measurementsOf traces).filter (fun m => Metric.normalize m.metric == metric) =
      (measurementsOf traces').filter (fun m => Metric.normalize m.metric == metric)) :
    aggregate traces = aggregate traces'
  respelled {traces' : List Trace} (h : List.Forall₂ Respelled (measurementsOf traces) (measurementsOf traces')) :
    aggregate traces = aggregate traces'
  extended {before added after : List Trace} (h : traces = before ++ after)
    (hadded : ∀ t ∈ added, ∀ m ∈ t.measurements, m.value.isFinite = false) :
    aggregate traces = aggregate (before ++ added ++ after)

theorem holdsMeans {traces : List Trace} (hfew : (measurementsOf traces).length < 2 ^ 32) : HoldsMeans traces := by
  constructor
  · intro metric
    rw [contains_aggregate_iff, finiteValues_ne_nil_iff]
    constructor
    · rintro ⟨m, hm, hvalue⟩
      obtain ⟨t, ht, hmt⟩ := List.mem_flatMap.mp hm
      exact ⟨t, ht, m, hmt, hvalue⟩
    · rintro ⟨t, ht, m, hmt, hvalue⟩
      exact ⟨m, List.mem_flatMap.mpr ⟨t, ht, hmt⟩, hvalue⟩
  · intro metric x h
    rw [get?_aggregate] at h
    split at h
    · cases h
    · next hne =>
        have hcount : (finiteValues metric (measurementsOf traces)).length < 2 ^ 53 :=
          calc (finiteValues metric (measurementsOf traces)).length ≤ (measurementsOf traces).length := by
                rw [finiteValues, List.length_map]
                exact List.length_filter_le ..
            _ < 2 ^ 32 := hfew
            _ ≤ 2 ^ 53 := by decide
        obtain ⟨hfinite, hvalue⟩ := Decimal.value_toFloat hcount
        exact ⟨_, _, rfl, fun hzero => hne (List.length_eq_zero_iff.mp hzero), hfinite, hvalue, (Option.some.inj h).symm⟩

theorem dependsOnValues (traces : List Trace) : DependsOnValues traces := by
  constructor
  · exact aggregate_congr
  · intro traces' h
    exact aggregate_congr fun metric => by rw [h]
  · intro traces' h
    refine aggregate_congr fun metric => ?_
    rw [← finiteValues_filter, h, finiteValues_filter]
  · intro traces' h
    exact aggregate_congr (finiteValues_of_respelled h)
  · rintro before added after rfl hadded
    have hnone : ∀ m ∈ measurementsOf added, m.value.isFinite = false := by
      intro m hm
      obtain ⟨t, ht, hmt⟩ := List.mem_flatMap.mp hm
      exact hadded t ht m hmt
    refine aggregate_congr fun metric => ?_
    rw [measurementsOf_append, measurementsOf_append, measurementsOf_append, finiteValues_append, finiteValues_append,
      finiteValues_append, finiteValues_eq_nil hnone, List.append_nil]

/-- Aggregation is the mean per metric, as long as the measurements can be counted in a word of 32 bits. -/
theorem aggregate_holdsMeans (traces : List Trace) (hfew : (measurementsOf traces).length < 2 ^ 32) :
    HoldsMeans traces ∧ DependsOnValues traces :=
  ⟨holdsMeans hfew, dependsOnValues traces⟩

/-- Two spellings of one metric on two traces. -/
theorem aggregate_holdsMeans_of_pair :
    let time : Timestamp := ⟨0, 0, by decide, by decide⟩
    let traces := [(Trace.new ⟨1⟩ time "trace-1").withMeasurement time "rouge" 0.25,
      (Trace.new ⟨2⟩ time "trace-2").withMeasurement time " ROUGE" 0.75]
    (measurementsOf traces).length < 2 ^ 32 ∧ (HoldsMeans traces ∧ DependsOnValues traces) ∧
      (aggregate traces).get? "ROUGE" = some 0.5 :=
  ⟨by decide, aggregate_holdsMeans _ (by decide), by decide +kernel⟩

end Scorecard
