/-!
The counters of a process: how many expressions were compiled and refused, how many scores were
asked for and failed, how many runs ended either way, and how many schedules were switched off. A counter is a
machine word, so after its greatest number it starts again from zero.
-/
namespace Scorecard

inductive Counter where
  | formulasParsed
  | parseFailures
  | evaluations
  | evaluationFailures
  | runsCompleted
  | runsFailed
  | schedulesAutoDisabled
deriving DecidableEq

namespace Counter

/-- The counters in the order in which they are listed. -/
def all : List Counter :=
  [.formulasParsed, .parseFailures, .evaluations, .evaluationFailures, .runsCompleted, .runsFailed,
    .schedulesAutoDisabled]

def word : Counter → String
  | .formulasParsed => "formulas_parsed"
  | .parseFailures => "parse_failures"
  | .evaluations => "evaluations"
  | .evaluationFailures => "evaluation_failures"
  | .runsCompleted => "runs_completed"
  | .runsFailed => "runs_failed"
  | .schedulesAutoDisabled => "schedules_auto_disabled"

def ofWord? (word : String) : Option Counter := all.find? (·.word == word)

theorem ofWord?_word (c : Counter) : ofWord? c.word = some c := by
  cases c <;> rfl

end Counter

structure Counters where
  formulasParsed : UInt64
  parseFailures : UInt64
  evaluations : UInt64
  evaluationFailures : UInt64
  runsCompleted : UInt64
  runsFailed : UInt64
  schedulesAutoDisabled : UInt64
deriving DecidableEq

namespace Counters

def zero : Counters := ⟨0, 0, 0, 0, 0, 0, 0⟩

instance : Inhabited Counters := ⟨zero⟩

def value (n : Counters) : Counter → UInt64
  | .formulasParsed => n.formulasParsed
  | .parseFailures => n.parseFailures
  | .evaluations => n.evaluations
  | .evaluationFailures => n.evaluationFailures
  | .runsCompleted => n.runsCompleted
  | .runsFailed => n.runsFailed
  | .schedulesAutoDisabled => n.schedulesAutoDisabled

def increment (n : Counters) : Counter → Counters
  | .formulasParsed => { n with formulasParsed := n.formulasParsed + 1 }
  | .parseFailures => { n with parseFailures := n.parseFailures + 1 }
  | .evaluations => { n with evaluations := n.evaluations + 1 }
  | .evaluationFailures => { n with evaluationFailures := n.evaluationFailures + 1 }
  | .runsCompleted => { n with runsCompleted := n.runsCompleted + 1 }
  | .runsFailed => { n with runsFailed := n.runsFailed + 1 }
  | .schedulesAutoDisabled => { n with schedulesAutoDisabled := n.schedulesAutoDisabled + 1 }

@[simp] theorem value_zero (c : Counter) : zero.value c = 0 := by
  cases c <;> rfl

@[simp] theorem value_increment (n : Counters) (c c' : Counter) :
    (n.increment c).value c' = n.value c' + if c' = c then 1 else 0 := by
  cases c <;> cases c' <;> simp [increment, value]

end Counters

end Scorecard
