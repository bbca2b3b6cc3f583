import JobPipeline.Worker.Command
import JobPipeline.Worker.Handling

/-!
# Workloads

An `Executor` says for every claimed job what its workload does: the commands it performs first, how
long it then takes, and how it ends. `Executor.simulated` takes a fixed time and fails the jobs of
one kind; a `Script` has a rule per kind, with an ending per attempt.
-/

namespace JobPipeline

/-- How a workload ends. -/
inductive Ending
  | result (result : WorkResult)
  /-- The workload takes its worker down with it. -/
  | panic
deriving DecidableEq, Repr

/-- What a workload does for one job. -/
structure Effort where
  commands : List Command
  /-- The milliseconds it takes. -/
  duration : Nat
  ending : Ending
  /-- Whether it leaves notes. -/
  noted : Bool

/-- The workloads of all jobs. -/
abbrev Executor := Job → Effort

namespace Executor

/-- The reason given for a job of the failing kind. -/
def alwaysFails (kind : String) : String := "job type '" ++ kind ++ "' always fails"

/-- Takes `latency` milliseconds, then fails the jobs of one kind and no others. -/
def simulated (latency : Nat) (failingKind : String) : Executor := fun job =>
  let ending : WorkResult :=
    if job.kind = failingKind then .failure (alwaysFails job.kind)
    else .success
  ⟨[], latency, .result ending, false⟩

end Executor

/-- What a script does for the jobs of one kind. -/
structure Rule where
  /-- The commands performed first. -/
  during : List Command
  /-- The milliseconds taken after them. -/
  duration : Nat
  /-- The ending of each attempt; the last one stands for all that follow, and no ending at all
  is success. -/
  endings : List Ending

/-- A rule for each kind, and one for all others under the name `*`. -/
abbrev Script := List (String × Rule)

namespace Script

/-- The rule of a kind that no rule names. -/
def Rule.nothing : Rule := ⟨[], 0, []⟩

def ruleFor (s : Script) (kind : String) : Rule :=
  ((s.lookup kind) <|> s.lookup "*").getD Rule.nothing

/-- The ending of the `attempt`-th attempt, counted from one. -/
def endingAt (endings : List Ending) (attempt : Nat) : Ending :=
  match endings[attempt - 1]? <|> endings.getLast? with
  | some ending => ending
  | none => .result .success

/-- The workloads a script describes. -/
def executor (s : Script) : Executor := fun job =>
  let rule := s.ruleFor job.kind
  ⟨rule.during, rule.duration, endingAt rule.endings job.attempts.toNat, true⟩

end Script
end JobPipeline
