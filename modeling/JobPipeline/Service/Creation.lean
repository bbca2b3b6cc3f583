import JobPipeline.Pipeline

/-!
# Creating a job

A creation stores the new record, tells the ledger of it, and offers its id to the queue without
waiting. Whatever the queue answers, the job exists from then on: an id that the queue did not take
is left to the next sweep. A refused creation leaves no trace.
-/

namespace JobPipeline

/-- How far a creation has come. -/
inductive Creation
  | storing (job : Job)
  /-- Stored; the ledger has not been told. -/
  | stored (job : Job)
  /-- The ledger has been told; the id has not been offered. -/
  | counted (job : Job)
  | done (result : Except JobError Job)

namespace Creation

/-- One operation on the shared parts; `refused` tells whether creations have been stopped. -/
def step (refused : Bool) : Creation → Pipeline → Option (Creation × Pipeline)
  | .storing job, p => match p.store.create job refused with
    | .ok store => some (.stored job, { p with store })
    | .error e => some (.done (.error e), p)
  | .stored job, p => some (.counted job, p.record .created)
  | .counted job, p => some (.done (.ok job), (p.offer job.id).2)
  | .done _, _ => none

/-- What the creation came to, if it has ended. -/
def result? : Creation → Option (Except JobError Job)
  | .done result => some result
  | _ => none

/-- A whole creation, over parts that nobody else touches meanwhile. -/
def run (refused : Bool) (job : Job) (p : Pipeline) : Except JobError Job × Pipeline :=
  let (creation, p) := iterate (fun (c, p) => c.step refused p) 3 (storing job, p)
  ((creation.result?).getD (.ok job), p)

end Creation
end JobPipeline
