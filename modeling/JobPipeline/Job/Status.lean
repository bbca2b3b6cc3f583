/-!
# The states of a job

A job is `pending` until a worker claims it, `processing` while its workload runs, and then
`completed` or `failed`; a failed job may become pending again. `canMoveTo` is the whole transition
table.
-/

namespace JobPipeline

/-- Where a job stands. -/
inductive Status
  | pending
  | processing
  | completed
  | failed
deriving DecidableEq, Repr

namespace Status

/-- All states, in the order of a job's life. -/
def all : List Status := [.pending, .processing, .completed, .failed]

def name : Status → String
  | .pending => "pending"
  | .processing => "processing"
  | .completed => "completed"
  | .failed => "failed"

def initial : Status := .pending

/-- The transition table. -/
def canMoveTo : Status → Status → Bool
  | .pending, .processing => true
  | .processing, .completed => true
  | .processing, .failed => true
  | .failed, .pending => true
  | _, _ => false

/-- The states that may follow a state. -/
def successors (s : Status) : List Status := all.filter s.canMoveTo

theorem mem_all (s : Status) : s ∈ all := by cases s <;> decide

/-- Different states have different names. -/
theorem name_injective {s t : Status} (h : s.name = t.name) : s = t := by
  revert h
  cases s <;> cases t <;> decide

end Status
end JobPipeline
