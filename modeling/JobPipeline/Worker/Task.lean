import JobPipeline.Worker.Executor

/-!
# Workers in time

A worker looks for an id, handles it, and looks again, until its stop signal fires or the queue has
ended. `Worker` is where it stands; `Task.step` is its next move in a `World`, if there is one now:
a worker that waits moves when the queue can serve it, and one whose workload runs moves when the
workload is due. The stop signal always goes first.

The workload starts within the move that leaves `ready`: its commands are performed, and if it takes
no time it ends there and then, whatever its commands did to the stop signal.
-/

namespace JobPipeline

/-- Where a worker stands. -/
inductive Worker
  /-- At the top of its loop. -/
  | looking
  /-- Suspended at the queue. -/
  | waiting
  | handling (h : Handling)
  /-- Back from its loop. -/
  | stopped
  /-- Taken down by its workload. -/
  | died
deriving DecidableEq, Repr

/-- Whether the worker will never move again. -/
def Worker.ended : Worker → Bool
  | .stopped => true
  | .died => true
  | _ => false

/-- A worker as a task: its name at the queue, its stop signal, where it stands, and when its
workload is due and how it will end. -/
structure Task where
  receiver : ReceiverId
  stop : Token
  worker : Worker
  due : Option (Nat × Ending)
  /-- Whether the worker stops after one id. -/
  once : Bool
deriving DecidableEq, Repr

namespace Task

/-- A worker about to start its loop. -/
def spawn (receiver : ReceiverId) (stop : Token) : Task := ⟨receiver, stop, .looking, none, false⟩

/-- A worker that handles one id and no more. -/
def single (stop : Token) (id : JobId) : Task := ⟨0, stop, .handling (.claiming id), none, true⟩

/-- The task where its worker stands elsewhere and no workload is due. -/
def goto (t : Task) (worker : Worker) : Task := { t with worker, due := none }

/-- The worker after its workload ended. -/
def conclude (t : Task) (job : Job) : Ending → Task
  | .result r => t.goto (.handling ((Handling.working job).finish r))
  | .panic => t.goto .died

/-- Asks the queue for an id. -/
def look (t : Task) (w : World) : Task × World :=
  let (receipt, queue) := w.pipeline.queue.receive t.receiver
  let w := w.withQueue queue
  match receipt with
  | .taken id => (t.goto (.handling (.claiming id)), w)
  | .waiting => (t.goto .waiting, w)
  | .ended => (t.goto .stopped, w)

def begin (exec : Executor) (t : Task) (job : Job) (w : World) : Task × World :=
  let effort := exec job
  let w := if effort.noted then { w with notes := w.notes ++ [.saw job] } else w
  let w := Command.runAll effort.commands w
  if effort.duration = 0 then (t.conclude job effort.ending, w)
  else
    ({ t with
        worker := .handling (.working job),
        due := some (w.clock + effort.duration, effort.ending) }, w)

/-- The next move of a worker, if it has one at this time. -/
def step (exec : Executor) (t : Task) (w : World) : Option (Task × World) :=
  let stopped := w.isFired t.stop
  match t.worker with
  | .looking => if stopped then some (t.goto .stopped, w) else some (t.look w)
  | .waiting =>
    if stopped then some (t.goto .stopped, w.withQueue (w.pipeline.queue.abandon t.receiver))
    else if w.pipeline.queue.canServe t.receiver then some (t.look w)
    else none
  | .handling (.done outcome) =>
    if t.once then none
    else some (t.goto (if outcome = .aborted then .stopped else .looking), w)
  | .handling (.ready job) =>
    if stopped then some (t.goto (.handling (.done .aborted)), w) else some (t.begin exec job w)
  | .handling (.working job) =>
    if stopped then some (t.goto (.handling (.done .aborted)), w)
    else match t.due with
      | some (time, ending) => if time ≤ w.clock then some (t.conclude job ending, w) else none
      | none => none
  | .handling h => (h.step stopped w.pipeline).map fun (h, pipeline) =>
    (t.goto (.handling h), { w with pipeline })
  | .stopped => none
  | .died => none

def ended (t : Task) : Bool :=
  t.worker.ended || (t.once && match t.worker with | .handling (.done _) => true | _ => false)

def dueTime (t : Task) : Option Nat := t.due.map Prod.fst

end Task
end JobPipeline
