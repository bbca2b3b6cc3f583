import JobPipeline.Service.Basic

/-!
# Shutting a service down

A shutdown stops creations, takes the handles of the running tasks, stops the sweeper and waits for
it, and closes the queue. The workers then drain what is buffered. If they are not back when the
grace time is over they are told to stop and waited for again. At last the whole service is marked
as shut down, after which it cannot be started.

A shutdown may be asked for more than once, also while another one is under way: the first to take
the handles does the waiting, and the others find nothing to wait for. `Shutdown.step` is one move
of one of them, `none` while it has to wait.
-/

namespace JobPipeline

/-- How far a shutdown has come. -/
inductive Shutdown
  | begun
  /-- Creations are stopped. -/
  | refusing
  /-- The handles are taken; the sweeper has not been told to stop. -/
  | holding (handles : Option Handles)
  | awaitingSweeper (handles : Handles)
  /-- The sweeper is gone; the queue has not been closed. -/
  | closing (workers : Option (List Nat))
  /-- The workers have until the deadline. -/
  | draining (workers : List Nat) (deadline : Nat)
  /-- The workers have been told to stop. -/
  | joining (workers : List Nat)
  /-- All tasks are gone; the service is not marked yet. -/
  | finishing
  | returned
deriving DecidableEq, Repr

namespace Service

def fire (s : Service) (t : Token) : Service := s.withWorld (s.world.fire t)

def closeQueue (s : Service) : Service :=
  s.withPipeline { s.pipeline with queue := s.pipeline.queue.close }

def workersEnded (s : Service) (workers : List Nat) : Bool :=
  workers.all fun i => (s.timeline.workers[i]?).all Task.ended

def sweeperEnded (s : Service) (sweeper : Nat) : Bool :=
  (s.timeline.sweepers[sweeper]?).all SweeperTask.ended

/-- The milliseconds the workers are granted. -/
def grace (s : Service) : Nat := s.config.worker.shutdownTimeoutSecs.toNat * 1000

end Service

namespace Shutdown

/-- One move of a shutdown; nothing while it has to wait, or is over. -/
def step : Shutdown → Service → Option (Shutdown × Service)
  | .begun, s => some (.refusing, s.fire .accepting)
  | .refusing, s => some (.holding s.handles, { s with handles := none })
  | .holding none, s => some (.closing none, s.fire .sweeper)
  | .holding (some handles), s => some (.awaitingSweeper handles, s.fire .sweeper)
  | .awaitingSweeper handles, s =>
    if s.sweeperEnded handles.sweeper then some (.closing (some handles.workers), s) else none
  | .closing none, s => some (.finishing, s.closeQueue)
  | .closing (some workers), s => some (.draining workers (s.world.clock + s.grace), s.closeQueue)
  | .draining workers deadline, s =>
    if s.workersEnded workers then some (.finishing, s)
    else if deadline ≤ s.world.clock then some (.joining workers, s.fire .workers)
    else none
  | .joining workers, s => if s.workersEnded workers then some (.finishing, s) else none
  | .finishing, s => some (.returned, s.fire .shutdown)
  | .returned, _ => none

/-- The time at which a shutdown stops waiting by itself. -/
def dueTime : Shutdown → Option Nat
  | .draining _ deadline => some deadline
  | _ => none

/-- Goes through a shutdown while the tasks of the service move and time passes; `fuel` bounds
the moves. -/
def run : Nat → Shutdown → Service → Service
  | 0, _, s => s
  | fuel + 1, call, s =>
    let (call, s) := iterate (fun (call, s) => step call s) fuel (call, s)
    if call = .returned then s
    else
      let s := s.settle
      if (step call s).isSome then run fuel call s
      else match ((dueTime call).toList ++ s.timeline.nextDue.toList).min? with
        | some time => run fuel call { s with timeline := s.timeline.movedTo time }.settle
        | none => s

end Shutdown

def Service.shutdown (s : Service) : Service := Shutdown.run Timeline.ample .begun s

end JobPipeline
