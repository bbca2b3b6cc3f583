import JobPipeline.Sweeper.Sweep

/-!
# Commands

A `Command` is one operation on the shared parts as somebody outside the workers performs it: an
operator between two runs, or a workload in the middle of its own. `Command.run` performs it and
gives the `Reply`.

The `World` is what such operations act on: the shared parts, the tokens fired so far and those that
will fire at a set time, the time in milliseconds, and the notes that scripted workloads leave
behind.
-/

namespace JobPipeline

/-- One operation on the shared parts. -/
inductive Command
  | put (job : Job) (token : Token)
  | get (id : JobId)
  | list
  | ids
  | pending
  | failed
  | size
  | counts
  | claim (id : JobId)
  | succeed (id : JobId)
  | fail (id : JobId) (reason : String)
  | recover (token : Token)
  | offer (id : JobId)
  | receive
  | close
  | queue
  | fire (token : Token)
  | sweep (token : Token)
  | record (event : Ledger.Event)
deriving Repr

/-- The answer to a command. -/
inductive Reply
  | done
  | job (job : Option Job)
  | jobs (jobs : List Job)
  | ids (ids : List JobId)
  | size (n : Nat)
  | counts (counts : StatusCounts)
  | claimed (job : Option Job)
  | verdict (verdict : Verdict)
  | number (n : Nat)
  | offered (offer : Offer)
  | received (receipt : Receipt)
  | stats (stats : QueueStats)
  | swept (report : SweepReport)
  | recorded
  | error (error : JobError)
deriving Repr

/-- What a scripted workload leaves behind: the job it was given, and the answers to
its commands. -/
inductive Note
  | saw (job : Job)
  | reply (reply : Reply)
deriving Repr

/-- The shared parts in time. -/
structure World where
  /-- Milliseconds since the beginning. -/
  clock : Nat
  pipeline : Pipeline
  /-- The tokens that have been fired. -/
  fired : List Token
  /-- The tokens that will be fired, and when. -/
  alarms : List (Nat × Token)
  /-- The notes of scripted workloads, oldest first. -/
  notes : List Note
deriving Repr

namespace World

def initial (capacity : Nat) : World := ⟨0, .empty capacity, [], [], []⟩

def isFired (w : World) (t : Token) : Bool := t.isFired w.fired

def fire (w : World) (t : Token) : World := { w with fired := t :: w.fired }

/-- The world after the first alarm that is due has gone off. -/
def ring (w : World) : Option World :=
  match w.alarms.find? fun (time, _) => time ≤ w.clock with
  | none => none
  | some alarm => some { w.fire alarm.2 with alarms := w.alarms.erase alarm }

def withStore (w : World) (store : Store) : World :=
  { w with pipeline := { w.pipeline with store } }

def withQueue (w : World) (queue : Queue) : World :=
  { w with pipeline := { w.pipeline with queue } }

end World

namespace Command

/-- Performs an operation. -/
def run (c : Command) (w : World) : Reply × World :=
  let store := w.pipeline.store
  let queue := w.pipeline.queue
  match c with
  | .put job token => match store.create job (w.isFired token) with
    | .ok store => (.done, w.withStore store)
    | .error e => (.error e, w)
  | .get id => (.job (store.get? id), w)
  | .list => (.jobs store.list, w)
  | .ids => (.ids (store.list.map Job.id), w)
  | .pending => (.ids (store.listPending.map Job.id), w)
  | .failed => (.ids (store.listFailed.map Job.id), w)
  | .size => (.size store.size, w)
  | .counts => (.counts store.statusCounts, w)
  | .claim id => match store.claim id with
    | some (job, store) => (.claimed (some job), w.withStore store)
    | none => (.claimed none, w)
  | .succeed id => match store.reportSuccess id with
    | .ok store => (.done, w.withStore store)
    | .error e => (.error e, w)
  | .fail id reason => match store.reportFailure id reason with
    | .ok (verdict, store) => (.verdict verdict, w.withStore store)
    | .error e => (.error e, w)
  | .recover token => match store.recoverEligible (w.isFired token) with
    | .ok (n, store) => (.number n, w.withStore store)
    | .error e => (.error e, w)
  | .offer id =>
    let (answer, queue) := queue.offer id
    (.offered answer, w.withQueue queue)
  | .receive =>
    let (receipt, queue) := queue.poll
    (.received receipt, w.withQueue queue)
  | .close => (.done, w.withQueue queue.close)
  | .queue => (.stats queue.stats, w)
  | .fire token => (.done, w.fire token)
  | .sweep token =>
    let (report, pipeline) := Sweep.run (w.isFired token) w.pipeline
    (.swept report, { w with pipeline })
  | .record event => (.recorded, { w with pipeline := w.pipeline.record event })

/-- Performs operations one after the other, with a note of each reply. -/
def runAll (cs : List Command) (w : World) : World :=
  cs.foldl (fun w c =>
    let (reply, w) := c.run w
    { w with notes := w.notes ++ [.reply reply] }) w

end Command
end JobPipeline
