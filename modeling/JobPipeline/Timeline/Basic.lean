import JobPipeline.Sweeper.Task
import JobPipeline.Worker.Task

/-!
# Actors under virtual time

A `Timeline` is a world with the workers and sweepers that live in it. Time stands still while
anybody can move, and then jumps to the next time at which somebody, or an alarm, is due.

`Timeline.turn` is one move: the actor that moved last goes on as long as it can, else the first one
that can. `settle` makes moves until nobody can, `advanceTo` lets time pass up to a given moment,
and `runUntil` until a condition holds. They take a `fuel` that only bounds the number of moves.
-/

namespace JobPipeline

/-- An actor of a timeline, by its position. -/
inductive ActorId
  | worker (i : Nat)
  | sweeper (i : Nat)
deriving DecidableEq, Repr

/-- A world, its actors, and who moved last. -/
structure Timeline where
  world : World
  executor : Executor
  workers : List Task
  sweepers : List SweeperTask
  focus : Option ActorId

namespace Timeline

/-- A world without actors. -/
def ofWorld (world : World) (executor : Executor) : Timeline := ⟨world, executor, [], [], none⟩

def moveWorker (t : Timeline) (i : Nat) : Option Timeline := do
  let task ← t.workers[i]?
  let (task, world) ← task.step t.executor t.world
  return { t with world, workers := t.workers.set i task, focus := some (.worker i) }

def moveSweeper (t : Timeline) (i : Nat) : Option Timeline := do
  let task ← t.sweepers[i]?
  let (task, world) ← task.step t.world
  return { t with world, sweepers := t.sweepers.set i task, focus := some (.sweeper i) }

def move (t : Timeline) : ActorId → Option Timeline
  | .worker i => t.moveWorker i
  | .sweeper i => t.moveSweeper i

/-- All actors, in the order in which they get their turn. -/
def actors (t : Timeline) : List ActorId :=
  (List.range t.workers.length).map .worker ++ (List.range t.sweepers.length).map .sweeper

def turn (t : Timeline) : Option Timeline :=
  match t.focus.bind t.move with
  | some t => some t
  | none => match t.actors.findSome? t.move with
    | some t => some t
    | none => t.world.ring.map fun world => { t with world }

/-- Moves until nobody can. -/
def settle (fuel : Nat) (t : Timeline) : Timeline := { iterate turn fuel t with focus := none }

def nextDue (t : Timeline) : Option Nat :=
  let times := t.workers.filterMap Task.dueTime ++ t.sweepers.filterMap SweeperTask.dueTime ++
    t.world.alarms.map Prod.fst
  times.min?

/-- The timeline at a later time. -/
def movedTo (t : Timeline) (time : Nat) : Timeline :=
  { t with world := { t.world with clock := max t.world.clock time } }

/-- Lets time pass until `done` holds or the given time is reached; what is due at that
time happens. -/
def runUntil (done : Timeline → Bool) (limit : Nat) : Nat → Timeline → Timeline
  | 0, t => t
  | fuel + 1, t =>
    let t := t.settle fuel
    if done t then t
    else match t.nextDue with
      | some time =>
        if time ≤ limit then runUntil done limit fuel (t.movedTo time)
        else t.movedTo limit
      | none => t.movedTo limit

/-- Lets time pass up to a given moment; what is due at that moment happens. -/
def advanceTo (limit fuel : Nat) (t : Timeline) : Timeline := t.runUntil (fun _ => false) limit fuel

/-- More moves than any run of practical length makes. -/
def ample : Nat := Nat.pow 2 48

end Timeline
end JobPipeline
