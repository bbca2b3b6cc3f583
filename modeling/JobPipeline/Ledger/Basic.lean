/-!
# The ledger

Five counters of what has happened to jobs. Each `Event` is one indivisible update; `Ledger.record`
applies it, and a counter that goes down stops at zero. `Event.signals` is what an exporter is told
of the same update: increments of its own counters, and the value of the gauge after the update.
-/

namespace JobPipeline

structure Ledger where
  created : UInt64
  completed : UInt64
  failed : UInt64
  retried : UInt64
  inProgress : UInt64
deriving DecidableEq, Repr

namespace Ledger

def zero : Ledger := ⟨0, 0, 0, 0, 0⟩

/-- What the ledger is told. -/
inductive Event
  | created
  | claimed
  | completed
  | failed
  /-- A failed job was sent back for another attempt. -/
  | retried
  /-- An attempt failed, and the job goes back at once (`retry`) or for good. -/
  | failureReported (retry : Bool)
deriving DecidableEq, Repr

/-- One less, or zero. -/
def saturatingPred (n : UInt64) : UInt64 := if n = 0 then 0 else n - 1

/-- The counters after an event. -/
def record (l : Ledger) : Event → Ledger
  | .created => { l with created := l.created + 1 }
  | .claimed => { l with inProgress := l.inProgress + 1 }
  | .completed => { l with completed := l.completed + 1, inProgress := saturatingPred l.inProgress }
  | .failed => { l with failed := l.failed + 1, inProgress := saturatingPred l.inProgress }
  | .retried => { l with retried := l.retried + 1, failed := saturatingPred l.failed }
  | .failureReported true =>
    { l with retried := l.retried + 1, inProgress := saturatingPred l.inProgress }
  | .failureReported false =>
    { l with failed := l.failed + 1, inProgress := saturatingPred l.inProgress }

/-- What an exporter is told. -/
inductive Signal
  | increment (counter : String) (amount : UInt64)
  | set (gauge : String) (value : UInt64)
deriving DecidableEq, Repr

def createdTotal : String := "conveyor_jobs_created_total"

def completedTotal : String := "conveyor_jobs_completed_total"

def failedTotal : String := "conveyor_jobs_failed_total"

def retriedTotal : String := "conveyor_jobs_retried_total"

def inProgressGauge : String := "conveyor_jobs_in_progress"

/-- What an exporter is told of an event that led to the counters `after`. -/
def Event.signals (after : Ledger) : Event → List Signal
  | .created => [.increment createdTotal 1]
  | .claimed => [.set inProgressGauge after.inProgress]
  | .completed => [.increment completedTotal 1, .set inProgressGauge after.inProgress]
  | .failed => [.increment failedTotal 1, .set inProgressGauge after.inProgress]
  | .retried => [.increment retriedTotal 1]
  | .failureReported true => [.increment retriedTotal 1, .set inProgressGauge after.inProgress]
  | .failureReported false => [.increment failedTotal 1, .set inProgressGauge after.inProgress]

/-- The kinds of figures an exporter shows. -/
inductive Figure
  | counter
  | gauge
deriving DecidableEq, Repr

/-- The names and descriptions an exporter is given at the start, in order. -/
def descriptions : List (Figure × String × String) := [
  (.counter, createdTotal, "Total number of jobs created"),
  (.counter, completedTotal, "Total number of jobs completed successfully"),
  (.counter, failedTotal, "Total number of jobs that exhausted their retries"),
  (.counter, retriedTotal, "Total number of job retries"),
  (.gauge, inProgressGauge, "Current number of jobs being processed")]

end Ledger
end JobPipeline
