import JobPipeline.Timeline.Basic

/-!
# Runs of single actors

What an operator can let happen in a world that has no service: handle one id, run one worker or a
pool of workers for some time, and run a sweeper. Each run gives what became of it and the world it
leaves; the workers and sweepers are gone afterwards.
-/

namespace JobPipeline.Session

/-- What became of a handling. -/
inductive Handled
  | outcome (outcome : Outcome)
  /-- The workload took the caller down with it. -/
  | panicked
deriving DecidableEq, Repr

/-- Lets the workers of a timeline go: those suspended at the queue leave it. -/
def release (t : Timeline) : World :=
  t.workers.foldl (fun w task => w.withQueue (w.pipeline.queue.abandon task.receiver)) t.world

/-- Handles one id; `cancelAt` may name a time from now at which the token is fired. -/
def handle (exec : Executor) (stop : Token) (id : JobId) (cancelAt : Option Nat) (w : World) :
    Handled × World :=
  let w := match cancelAt with
    | some ms => { w with alarms := w.alarms ++ [(w.clock + ms, stop)] }
    | none => w
  let t : Timeline := { Timeline.ofWorld w exec with workers := [Task.single stop id] }
  let done (t : Timeline) : Bool := t.workers.all Task.ended
  let horizon := w.clock + 18446744073709551616
  let t := t.runUntil done horizon Timeline.ample
  let handled := match t.workers with
    | [task] => match task.worker with
      | .handling (.done outcome) => .outcome outcome
      | _ => .panicked
    | _ => .panicked
  (handled, release t)

/-- Runs one worker and drops it after some time; tells whether it had stopped by
itself, or died. -/
def work (exec : Executor) (stop : Token) (ms : Nat) (w : World) : Worker × World :=
  let t : Timeline := { Timeline.ofWorld w exec with workers := [Task.spawn 0 stop] }
  let t := t.runUntil (fun t => t.workers.all Task.ended) (w.clock + ms) Timeline.ample
  ((t.workers.head?.map Task.worker).getD .stopped, release t)

/-- What became of a pool. -/
structure PoolReport where
  /-- Workers that returned. -/
  clean : Nat
  /-- Workers that their workloads took down. -/
  died : Nat
  /-- Whether the time ran out, so that the pool was told to stop. -/
  cancelled : Bool
deriving DecidableEq, Repr

/-- Runs a pool of workers; after some time it is told to stop, and all workers are waited for. -/
def pool (exec : Executor) (stop : Token) (size ms : Nat) (w : World) : PoolReport × World :=
  let workers := (List.range size).map fun i => Task.spawn i stop
  let done (t : Timeline) : Bool := t.workers.all Task.ended
  let t : Timeline := { Timeline.ofWorld w exec with workers }
  let t := t.runUntil done (w.clock + ms) Timeline.ample
  let cancelled := !done t
  let t := if cancelled then { t with world := t.world.fire stop }.settle Timeline.ample else t
  let count (worker : Worker) : Nat := t.workers.countP fun task => task.worker = worker
  (⟨count .stopped, count .died, cancelled⟩, release t)

/-- The wording of the refusal to sweep without a pause. -/
def zeroInterval : String := "`period` must be non-zero."

/-- Runs a sweeper for some time. -/
def sweep (interval ms : Nat) (w : World) : Except String World :=
  if interval = 0 then .error zeroInterval
  else
    let sweepers := [SweeperTask.spawn (Token.named "sweeper") interval w.clock]
    let t : Timeline := { Timeline.ofWorld w (Executor.simulated 0 "") with sweepers }
    .ok (t.advanceTo (w.clock + ms) Timeline.ample).world

end JobPipeline.Session
