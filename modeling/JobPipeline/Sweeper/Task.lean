import JobPipeline.Sweeper.Sweep
import JobPipeline.Worker.Command

/-!
# The sweeper in time

The sweeper rests for one interval, sweeps, and rests again, until its stop signal fires. It looks
at the signal whenever it rests, and a sweep under way looks at it before every offer.
-/

namespace JobPipeline

/-- Where the sweeper stands. -/
inductive Sweeper
  /-- Until the given time. -/
  | resting (next : Nat)
  | sweeping (s : Sweep)
  | stopped
deriving DecidableEq, Repr

/-- A sweeper as a task: its stop signal, its interval in milliseconds, and where it stands. -/
structure SweeperTask where
  stop : Token
  interval : Nat
  sweeper : Sweeper
deriving DecidableEq, Repr

namespace SweeperTask

/-- A sweeper that starts now: its first sweep is one interval away. -/
def spawn (stop : Token) (interval now : Nat) : SweeperTask :=
  ⟨stop, interval, .resting (now + interval)⟩

def step (t : SweeperTask) (w : World) : Option (SweeperTask × World) :=
  let stopped := w.isFired t.stop
  match t.sweeper with
  | .resting next =>
    if stopped then some ({ t with sweeper := .stopped }, w)
    else if next ≤ w.clock then some ({ t with sweeper := .sweeping .recovering }, w)
    else none
  | .sweeping (.done _) => some ({ t with sweeper := .resting (w.clock + t.interval) }, w)
  | .sweeping s => (s.step stopped w.pipeline).map fun (s, pipeline) =>
    ({ t with sweeper := .sweeping s }, { w with pipeline })
  | .stopped => none

def ended (t : SweeperTask) : Bool := t.sweeper = .stopped

def dueTime (t : SweeperTask) : Option Nat :=
  match t.sweeper with
  | .resting next => some next
  | _ => none

end SweeperTask
end JobPipeline
