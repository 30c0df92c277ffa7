import Mathlib
import Scorecard.Journal.Basic

/-!
What journals count and tell. A counter goes up by the number of its entries, and events are told in the order of the
journal, those of a name among them; all this is put together from the parts of a journal, and moving a journal into
the span of a run changes none of it.
-/
namespace Scorecard

def Entry.counts (c : Counter) : Entry → Bool
  | .count c' => c' == c
  | .event .. => false

namespace Journal

/-- How often the counter is incremented. -/
def tally (c : Counter) (j : Journal) : Nat := j.countP (Entry.counts c)

/-- The events, whether they lie within a run or not. -/
def told (j : Journal) : List Event := j.events.map (·.1)

/-- The events of a name. -/
def toldAs (name : String) (j : Journal) : List Event := j.told.filter (·.name == name)

/-! ### Parts -/

section

variable (c c' : Counter) (e : Event) (inRun : Bool) (name : String) (j j' : Journal)

@[simp] theorem withinRun_nil : withinRun [] = [] := rfl

@[simp] theorem withinRun_count : withinRun (.count c :: j) = .count c :: j.withinRun := rfl

@[simp] theorem withinRun_tell : withinRun (tell e :: j) = .event e true :: j.withinRun := rfl

@[simp] theorem withinRun_append : (j ++ j').withinRun = j.withinRun ++ j'.withinRun := List.map_append

@[simp] theorem tally_nil : tally c [] = 0 := rfl

@[simp] theorem tally_count : tally c (.count c' :: j) = tally c j + if c' = c then 1 else 0 := by
  simp [tally, List.countP_cons, Entry.counts]

@[simp] theorem tally_event : tally c (.event e inRun :: j) = tally c j := by
  simp [tally, Entry.counts]

@[simp] theorem tally_tell : tally c (tell e :: j) = tally c j := tally_event c e false j

@[simp] theorem tally_append : tally c (j ++ j') = tally c j + tally c j' := List.countP_append

@[simp] theorem tally_withinRun : tally c j.withinRun = tally c j := by
  rw [tally, tally, withinRun, List.countP_map]
  refine List.countP_congr fun entry _ => ?_
  cases entry <;> rfl

@[simp] theorem told_nil : told [] = [] := rfl

@[simp] theorem told_count : told (.count c :: j) = told j := rfl

@[simp] theorem told_event : told (.event e inRun :: j) = e :: told j := rfl

@[simp] theorem told_tell : told (tell e :: j) = e :: told j := rfl

@[simp] theorem told_append : told (j ++ j') = told j ++ told j' := by
  rw [told, events, List.filterMap_append, List.map_append]
  rfl

@[simp] theorem told_withinRun : told j.withinRun = told j := by
  induction j with
  | nil => rfl
  | cons entry j ih =>
      cases entry with
      | count c => exact ih
      | event e inRun => exact congrArg (e :: ·) ih

theorem toldAs_append : toldAs name (j ++ j') = toldAs name j ++ toldAs name j' := by
  rw [toldAs, told_append, List.filter_append]
  rfl

theorem toldAs_withinRun : toldAs name j.withinRun = toldAs name j := by
  rw [toldAs, told_withinRun, toldAs]

end

theorem toldAs_eq_nil {name : String} {j : Journal} (h : ∀ e ∈ j.told, e.name ≠ name) : j.toldAs name = [] := by
  rw [toldAs, List.filter_eq_nil_iff]
  intro e he
  simp [h e he]

/-! ### Counters -/

/-- A counter goes up by the number of its entries. -/
theorem value_record (c : Counter) (j : Journal) (n : Counters) :
    (j.record n).value c = n.value c + .ofNat (j.tally c) := by
  induction j generalizing n with
  | nil => exact (UInt64.add_zero _).symm
  | cons entry j ih =>
      have hrest : record (entry :: j) n = record j (entry.record n) := rfl
      rw [hrest, ih]
      cases entry with
      | count c' =>
          have hword : UInt64.ofNat (if c' = c then 1 else 0) = if c = c' then 1 else 0 := by
            rw [apply_ite UInt64.ofNat]
            simp only [eq_comm]
            rfl
          rw [Entry.record, Counters.value_increment, tally_count, UInt64.ofNat_add, hword, UInt64.add_assoc,
            UInt64.add_comm (UInt64.ofNat _)]
      | event e inRun => rw [Entry.record, tally_event]

/-- From zero, a counter has the number of its entries, up to whole turns. -/
theorem value_record_zero (c : Counter) (j : Journal) : (j.record .zero).value c = .ofNat (j.tally c) := by
  rw [value_record, Counters.value_zero, UInt64.zero_add]

end Journal

end Scorecard
