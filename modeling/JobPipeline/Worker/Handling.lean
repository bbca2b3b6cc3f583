import JobPipeline.Pipeline

/-!
# Handling one id

What a worker does with an id it was handed: claim the job, count it as in progress, run the
workload, report to the store, settle the ledger, and offer the id again if another attempt follows.
`Handling.step` does one of these at a time. The workload itself is no step: `working` waits for it,
and `Handling.finish` goes on with its result.

A worker looks at its stop signal twice: right before the workload starts, and for as long as it
runs. A job whose handling is aborted there stays `processing`.
-/

namespace JobPipeline

/-- What a workload came to. -/
inductive WorkResult
  | success
  | failure (reason : String)
deriving DecidableEq, Repr

/-- How the handling of an id ended. -/
inductive Outcome
  /-- There is no such job, or it is not pending. -/
  | notClaimable
  | completed
  /-- The job is pending again; its id was offered with this answer. -/
  | retrying (requeue : Offer)
  /-- The job failed and has no retries left. -/
  | failed
  /-- The stop signal fired before the workload ended; nothing was reported. -/
  | aborted
  /-- The store refused the report. -/
  | reportRejected
deriving DecidableEq, Repr

/-- How far the handling of an id has come. -/
inductive Handling
  | claiming (id : JobId)
  /-- Claimed; the ledger has not been told. -/
  | claimed (job : Job)
  /-- About to start the workload. -/
  | ready (job : Job)
  | working (job : Job)
  | reporting (job : Job) (result : WorkResult)
  /-- The success is stored; the ledger has not been told. -/
  | succeeded (job : Job)
  /-- The failure is stored; the ledger has not been told. -/
  | failed (job : Job) (verdict : Verdict)
  /-- The id is to be offered again. -/
  | requeueing (job : Job)
  | done (outcome : Outcome)
deriving DecidableEq, Repr

namespace Handling

/-- One operation on the shared parts; `stopped` tells whether the stop signal has fired. -/
def step (stopped : Bool) : Handling → Pipeline → Option (Handling × Pipeline)
  | .claiming id, p => match p.store.claim id with
    | none => some (.done .notClaimable, p)
    | some (job, store) => some (.claimed job, { p with store })
  | .claimed job, p => some (.ready job, p.record .claimed)
  | .ready job, p => some (if stopped then .done .aborted else .working job, p)
  | .working _, p => if stopped then some (.done .aborted, p) else none
  | .reporting job .success, p => match p.store.reportSuccess job.id with
    | .ok store => some (.succeeded job, { p with store })
    | .error _ => some (.done .reportRejected, p)
  | .reporting job (.failure reason), p => match p.store.reportFailure job.id reason with
    | .ok (verdict, store) => some (.failed job verdict, { p with store })
    | .error _ => some (.done .reportRejected, p)
  | .succeeded _, p => some (.done .completed, p.record .completed)
  | .failed job .retry, p => some (.requeueing job, p.record (.failureReported true))
  | .failed _ .exhausted, p => some (.done .failed, p.record (.failureReported false))
  | .requeueing job, p =>
    let (answer, p) := p.offer job.id
    some (.done (.retrying answer), p)
  | .done _, _ => none

/-- The handling after its workload ended. -/
def finish (result : WorkResult) : Handling → Handling
  | .working job => .reporting job result
  | h => h

end Handling
end JobPipeline
