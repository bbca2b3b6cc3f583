import JobPipeline.Job.Error
import JobPipeline.Job.Uuid
import JobPipeline.Time.Instant

/-!
# Jobs

A `Job` is one unit of work with its history so far. Its status changes by `moveTo` only, which
follows the transition table; `claimed`, `succeeded`, `failedWith` and `recovered` are the changes
that the store makes. A failed attempt leaves the job `retryable` as long as its attempts have not
passed its budget.
-/

namespace JobPipeline

structure Job where
  id : JobId
  /-- The tag that selects the workload. -/
  kind : String
  status : Status
  payload : List UInt8
  /-- How often the job has been claimed. -/
  attempts : UInt32
  /-- How many attempts may follow the first. -/
  maxRetries : UInt32
  /-- The reason of the latest failure. -/
  lastError : Option String
  createdAt : Instant
deriving DecidableEq, Repr

/-- The retries a job is granted when nothing else is said. -/
def defaultMaxRetries : UInt32 := 3

/-- Whether another attempt is within the budget. -/
def retryEligible (attempts maxRetries : UInt32) : Bool := attempts ≤ maxRetries

/-- The verdict on a failed attempt. -/
inductive Verdict
  | retry
  | exhausted
deriving DecidableEq, Repr

namespace Job

/-- A new job, pending and unclaimed. -/
def new (id : JobId) (now : Instant) (kind : String) (payload : List UInt8) : Job :=
  { id, kind, status := .initial, payload, attempts := 0, maxRetries := defaultMaxRetries,
    lastError := none, createdAt := now }

/-- The identity made of random bits. -/
def freshId (random : Nat) : JobId := ⟨Uuid.v4 random⟩

/-- The job in another state, if the transition table allows the move. -/
def moveTo (job : Job) (target : Status) : Except JobError Job :=
  if job.status.canMoveTo target then .ok { job with status := target }
  else .error (.invalidTransition job.id job.status target)

def retryable (job : Job) : Bool := retryEligible job.attempts job.maxRetries

/-- One more than a word, or the greatest word. -/
def saturatingSucc (n : UInt32) : UInt32 := if n = 4294967295 then n else n + 1

/-- The job in a worker's hands: processing, with one more attempt. -/
def claimed (job : Job) : Except JobError Job := do
  let job ← job.moveTo .processing
  return { job with attempts := saturatingSucc job.attempts }

def succeeded (job : Job) : Except JobError Job := job.moveTo .completed

/-- The job after a failed attempt: it passes through `failed`, and goes on to `pending` if it is
retryable. -/
def failedWith (reason : String) (job : Job) : Except JobError (Verdict × Job) := do
  let job ← job.moveTo .failed
  let job := { job with lastError := some reason }
  if job.retryable then
    let job ← job.moveTo .pending
    return (.retry, job)
  else
    return (.exhausted, job)

/-- The job after a sweep: pending again if it failed and is retryable. Tells whether it moved. -/
def recovered (job : Job) : Except JobError (Bool × Job) :=
  if job.status = .failed ∧ job.retryable then (job.moveTo .pending).map (true, ·)
  else .ok (false, job)

end Job
end JobPipeline
