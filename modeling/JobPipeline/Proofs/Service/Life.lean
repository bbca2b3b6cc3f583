import JobPipeline.Proofs.Scene.Tasks
import JobPipeline.Proofs.Service.Guard

/-!
# The life of a service

A `Stage.Life` is a run of a stage in which the service may also be started, as often as anybody
likes and at any point of the shutdowns under way. Workloads leave the shared parts alone, but may
end in any way. The log has what can be told of starts and shutdowns: the answers to the former, and
how far the latter have come.

What is needed of a single step is collected here: that nobody opens a closed queue, that nobody but
a shutdown fires a token, that whoever has ended does not move, and that a shutdown lets go of a
task only if that has ended (`Shutdown.awaits_of_step`).
-/

namespace JobPipeline

/-! ## What every task keeps to -/

/-- Nobody at work opens a closed queue. -/
theorem Worker.Moves.closed {r : ReceiverId} {cue : Cue} {w w' : Worker} {p p' : Pipeline}
    (moves : w.Moves r cue p w' p') (closed : p.queue.isOpen = false) :
    p'.queue.isOpen = false := by
  have look : (Worker.look r p).2.queue.isOpen = false := (p.queue.isOpen_receive r).trans closed
  cases moves with
  | look => exact look
  | serve => exact look
  | handle proceeds =>
    cases proceeds with
    | requeue job => exact (p.queue.isOpen_offer job.id).trans closed
    | _ => exact closed
  | _ => exact closed

namespace Task

variable {exec : Executor} {t t' : Task} {w w' : World}

/-- A task that has ended does not move. -/
theorem not_ended_of_step {x : Task × World} (hs : t.step exec w = some x) : t.ended = false := by
  obtain ⟨r, stop, worker, due, once⟩ := t
  cases worker with
  | handling h =>
    cases h with
    | done outcome =>
      cases once with
      | true => cases hs
      | false => rfl
    | _ => simp [ended, Worker.ended]
  | looking => simp [ended, Worker.ended]
  | waiting => simp [ended, Worker.ended]
  | stopped => cases hs
  | died => cases hs

/-- A task with plain workloads fires no token, and listens to one only. -/
theorem keeps_of_step (plain : exec.Plain) (hs : t.step exec w = some (t', w')) :
    t'.stop = t.stop ∧ w'.fired = w.fired := by
  have look : (t.look w).1.stop = t.stop ∧ (t.look w).2.fired = w.fired := by
    unfold look
    rcases w.pipeline.queue.receive t.receiver with ⟨receipt, queue⟩
    cases receipt <;> exact ⟨rfl, rfl⟩
  have conclude (job : Job) (ending : Ending) : (t.conclude job ending).stop = t.stop := by
    cases ending <;> rfl
  have begun (job : Job) : (exec.begun job w).fired = w.fired := by
    obtain ⟨notes, begun⟩ := Executor.begun_eq (plain job) w
    rw [begun]
  cases moves_of_step hs with
  | look => exact look
  | serve => exact look
  | begin => exact ⟨rfl, begun _⟩
  | rush => exact ⟨conclude _ _, begun _⟩
  | conclude => exact ⟨conclude _ _, rfl⟩
  | _ => exact ⟨rfl, rfl⟩

theorem closed_of_step (plain : exec.Plain) (hs : t.step exec w = some (t', w'))
    (closed : w.pipeline.queue.isOpen = false) : w'.pipeline.queue.isOpen = false := by
  have run := step_refines plain hs
  generalize hx : (t.worker, w.pipeline) = x at run
  generalize hy : (t'.worker, w'.pipeline) = y at run
  suffices y.2.queue.isOpen = false by rw [← hy] at this; exact this
  have start : x.2.queue.isOpen = false := by rw [← hx]; exact closed
  clear hx hy
  induction run with
  | refl => exact start
  | tail _ step ih =>
    obtain ⟨cue, step⟩ := step
    exact (Worker.moves_of_step step).closed ih

end Task

theorem SweeperTask.not_ended_of_step {t : SweeperTask} {w : World} {x : SweeperTask × World}
    (hs : t.step w = some x) : t.ended = false := by
  obtain ⟨stop, interval, sweeper⟩ := t
  cases sweeper with
  | stopped => cases hs
  | _ => rfl

theorem Creation.closed_of_step {refused : Bool} {c c' : Creation} {p p' : Pipeline}
    (hs : c.step refused p = some (c', p')) (closed : p.queue.isOpen = false) :
    p'.queue.isOpen = false := by
  cases proceeds_of_step hs with
  | offer job => exact (Queue.isOpen_offer _ _).trans closed
  | _ => exact closed

/-! ## What a shutdown waits for -/

/-- Whether the handle of a task is among these. -/
def Handles.Has (h : Handles) : ActorId → Prop
  | .worker i => i ∈ h.workers
  | .sweeper i => i = h.sweeper

namespace Shutdown

/-- Whether a shutdown waits for a task, or will wait for it. -/
def Awaits : Shutdown → ActorId → Prop
  | .holding (some handles), a => handles.Has a
  | .awaitingSweeper handles, a => handles.Has a
  | .closing (some workers), .worker i => i ∈ workers
  | .draining workers _, .worker i => i ∈ workers
  | .joining workers, .worker i => i ∈ workers
  | _, _ => False

/-- Whether a shutdown has closed the queue. -/
def hasClosed : Shutdown → Bool
  | .draining _ _ => true
  | .joining _ => true
  | .finishing => true
  | .returned => true
  | _ => false

end Shutdown

/-- Whether a task has ended; a position without a task has nobody who has not. -/
def Service.hasEnded (s : Service) : ActorId → Bool
  | .worker i => (s.timeline.workers[i]?).all Task.ended
  | .sweeper i => s.sweeperEnded i

/-- A shutdown lets go of a task only if it has ended. -/
theorem Shutdown.awaits_of_step {call call' : Shutdown} {s s' : Service}
    (hs : call.step s = some (call', s')) {a : ActorId} (awaits : call.Awaits a) :
    call'.Awaits a ∨ s.hasEnded a = true := by
  have ended {workers : List Nat} (h : s.workersEnded workers = true) {i : Nat}
      (hi : i ∈ workers) : s.hasEnded (.worker i) = true := List.all_eq_true.1 h i hi
  cases call with
  | holding handles =>
    cases handles with
    | none => exact absurd awaits id
    | some handles => cases hs; exact .inl awaits
  | awaitingSweeper handles =>
    simp only [step] at hs
    split at hs
    · rename_i swept
      cases hs
      cases a with
      | worker i => exact .inl awaits
      | sweeper i => obtain rfl : i = handles.sweeper := awaits; exact .inr swept
    · cases hs
  | closing workers =>
    cases workers with
    | none => exact absurd awaits id
    | some workers => cases hs; cases a with
      | worker i => exact .inl awaits
      | sweeper i => exact absurd awaits id
  | draining workers deadline =>
    cases a with
    | sweeper i => exact absurd awaits id
    | worker i =>
      simp only [step] at hs
      split at hs
      · rename_i h; exact .inr (ended h awaits)
      · split at hs
        · cases hs; exact .inl awaits
        · cases hs
  | joining workers =>
    cases a with
    | sweeper i => exact absurd awaits id
    | worker i =>
      simp only [step] at hs
      split at hs
      · rename_i h; exact .inr (ended h awaits)
      · cases hs
  | begun => exact absurd awaits id
  | refusing => exact absurd awaits id
  | finishing => exact absurd awaits id
  | returned => cases hs

namespace Shutdown.Advances

variable {call call' : Shutdown} {s s' : Service}

theorem ne_begun (h : call.Advances s call' s') : call' ≠ .begun := by cases h <;> exact nofun

theorem ne_returned (h : call.Advances s call' s') : call ≠ .returned := by cases h <;> exact nofun

theorem eq_returned_iff (h : call.Advances s call' s') : call' = .returned ↔ call = .finishing := by
  cases h <;> simp

theorem isFired_accepting (h : call.Advances s call' s') :
    s'.world.isFired .accepting = (decide (call = .begun) || s.world.isFired .accepting) := by
  cases h with
  | refuse => exact World.isFired_fire s.world .accepting .accepting
  | pass => exact World.isFired_fire s.world .sweeper .accepting
  | halt => exact World.isFired_fire s.world .sweeper .accepting
  | expire => exact World.isFired_fire s.world .workers .accepting
  | mark => exact World.isFired_fire s.world .shutdown .accepting
  | _ => rfl

theorem isFired_shutdown (h : call.Advances s call' s') :
    s'.world.isFired .shutdown = (decide (call = .finishing) || s.world.isFired .shutdown) := by
  cases h with
  | refuse => exact World.isFired_fire s.world .accepting .shutdown
  | pass => exact World.isFired_fire s.world .sweeper .shutdown
  | halt => exact World.isFired_fire s.world .sweeper .shutdown
  | expire => exact World.isFired_fire s.world .workers .shutdown
  | mark => exact World.isFired_fire s.world .shutdown .shutdown
  | _ => rfl

/-- The handles stay with the service until a shutdown takes them. -/
theorem handles (h : call.Advances s call' s') :
    (call ≠ .refusing ∧ s'.handles = s.handles) ∨
      (call = .refusing ∧ call' = .holding s.handles ∧ s'.handles = none) := by
  cases h with
  | take => exact .inr ⟨rfl, rfl, rfl⟩
  | _ => exact .inl ⟨nofun, rfl⟩

theorem hasTaken_of_hasTaken (h : call.Advances s call' s') (taken : call.hasTaken = true) :
    call'.hasTaken = true := by
  cases h with
  | refuse => cases taken
  | _ => rfl

theorem hasTaken_of_refusing (h : refusing.Advances s call' s') : call'.hasTaken = true := by
  cases h; rfl

theorem hasTaken (h : call.Advances s call' s') (other : call ≠ .refusing)
    (taken : call'.hasTaken = true) : call.hasTaken = true := by
  cases h with
  | refuse => exact taken
  | take => exact absurd rfl other
  | _ => rfl

theorem timeline (h : call.Advances s call' s') :
    s'.timeline.workers = s.timeline.workers ∧ s'.timeline.sweepers = s.timeline.sweepers := by
  cases h <;> exact ⟨rfl, rfl⟩

/-- Of the shared parts a shutdown touches the queue only, to close it. -/
theorem pipeline (h : call.Advances s call' s') : s'.pipeline = s.pipeline ∨
    s'.pipeline = { s.pipeline with queue := s.pipeline.queue.close } := by
  cases h with
  | shut => exact .inr rfl
  | close => exact .inr rfl
  | _ => exact .inl rfl

theorem closed (h : call.Advances s call' s') (closed : s.pipeline.queue.isOpen = false) :
    s'.pipeline.queue.isOpen = false := by
  rcases h.pipeline with hp | hp <;> rw [hp]
  · exact closed
  · rfl

theorem hasClosed (h : call.Advances s call' s') (after : call'.hasClosed = true) :
    call.hasClosed = true ∨ s'.pipeline.queue.isOpen = false := by
  cases h with
  | shut => exact .inr rfl
  | close => exact .inr rfl
  | drained => exact .inl rfl
  | expire => exact .inl rfl
  | joined => exact .inl rfl
  | mark => exact .inl rfl
  | _ => cases after

end Shutdown.Advances

/-- Firing the token of the whole service fires that of the workers. -/
theorem World.isFired_workers {w : World} (h : w.isFired .shutdown = true) :
    w.isFired .workers = true := by
  obtain ⟨f, hf, hpath⟩ := List.any_eq_true.1 h
  refine List.any_eq_true.2 ⟨f, hf, ?_⟩
  rw [List.isPrefixOf_iff_prefix] at hpath ⊢
  exact hpath.trans ⟨["workers"], rfl⟩

/-- A start that succeeds finds nobody at work and no mark, and adds the tasks it has the
handles of. -/
theorem Service.start_eq_ok {s s' : Service} (h : s.start = .ok s') :
    s.handles = none ∧ s.world.isFired .shutdown = false ∧ s'.world = s.world ∧
      ∃ positions sweeper, s'.handles = some ⟨s.timeline.sweepers.length, positions⟩ ∧
        s'.timeline.sweepers = s.timeline.sweepers ++ [sweeper] ∧
        s'.timeline.workers = s.timeline.workers ++ positions.map (Task.spawn · .workers) ∧
        ∃ n, positions = (List.range n).map (s.timeline.workers.length + ·) := by
  unfold start at h
  split at h
  · cases h
  · rename_i idle
    split at h
    · cases h
    · rename_i unmarked
      cases h
      refine ⟨?_, by simpa using unmarked, rfl, _, _, rfl, rfl, rfl, _, rfl⟩
      simpa [isRunning] using idle

/-- After a start that succeeds the service has the handles of the tasks it did not have before. -/
theorem Service.hasEnded_of_start {s s' : Service} (h : s.start = .ok s') (a : ActorId) :
    (∃ handles, s'.handles = some handles ∧ handles.Has a) ∨ s'.hasEnded a = s.hasEnded a := by
  obtain ⟨-, -, -, positions, sweeper, hhandles, hsweepers, hworkers, n, hpositions⟩ :=
    start_eq_ok h
  have old {α : Type} (as bs : List α) (i : Nat) (other : i < as.length ∨ (as ++ bs).length ≤ i) :
      (as ++ bs)[i]? = as[i]? := by
    rcases other with hi | hi
    · exact List.getElem?_append_left hi
    · rw [List.getElem?_eq_none hi, List.getElem?_eq_none]
      rw [List.length_append] at hi
      omega
  cases a with
  | worker i =>
    by_cases hin : i ∈ positions
    · exact .inl ⟨_, hhandles, hin⟩
    · refine .inr (congrArg (Option.all Task.ended) ?_)
      rw [hworkers]
      refine old _ _ i ?_
      rw [hpositions] at hin ⊢
      simp only [List.mem_map, List.mem_range, not_exists, not_and] at hin
      have := hin (i - s.timeline.workers.length)
      simp only [List.length_append, List.length_map, List.length_range]
      omega
  | sweeper i =>
    by_cases hin : i = s.timeline.sweepers.length
    · exact .inl ⟨_, hhandles, hin⟩
    · refine .inr (congrArg (Option.all SweeperTask.ended) ?_)
      rw [hsweepers]
      refine old _ _ i ?_
      simp only [List.length_append, List.length_singleton]
      omega

namespace Stage

abbrev sweepers (s : Stage) : List SweeperTask := s.service.timeline.sweepers

/-- What happens at a stage. -/
inductive Event
  | start
  /-- Somebody looks at a job, at all jobs, or at the figures. -/
  | look
  | turn (t : Turn)

def Event.Plain : Event → Prop
  | .turn (.work _ exec) => exec.Plain
  | _ => True

/-- The stage after something has happened, if it can. -/
def advance (s : Stage) : Event → Option Stage
  | .start => match s.service.start with
    | .ok service => some { s with service }
    | .error _ => some s
  | .look => some s
  | .turn t => s.step t

/-- What can be told of starts and shutdowns. -/
inductive Notice
  | started (answer : Except JobError Unit)
  /-- Somebody asks for a shutdown. -/
  | asked
  /-- A shutdown takes the handles of the tasks. -/
  | taken
  /-- A shutdown returns. -/
  | returned
deriving DecidableEq

/-- The answer to somebody who starts the service. -/
def startAnswer (s : Stage) : Except JobError Unit := s.service.start.map fun _ => ()

/-- What can be told of an event. -/
def notices (s : Stage) : Event → List Notice
  | .start => [.started s.startAnswer]
  | .look => []
  | .turn .call => [.asked]
  | .turn (.proceed k) => match s.calls[k]? with
    | some .refusing => [.taken]
    | some .finishing => [.returned]
    | _ => []
  | .turn _ => []

/-- A run in which the service may be started as well. -/
inductive Life (allowed : Stage → Event → Bool) (s : Stage) : List Notice → Stage → Prop
  | refl : Life allowed s [] s
  | tail {log : List Notice} {t t' : Stage} {event : Event} (life : Life allowed s log t)
      (plain : event.Plain) (allows : allowed t event = true) (step : t.advance event = some t') :
      Life allowed s (log ++ t.notices event) t'

/-- The log and the end of a given life, if all that happens is allowed and possible. -/
def live (allowed : Stage → Event → Bool) : List Event → List Notice → Stage →
    Option (List Notice × Stage)
  | [], log, s => some (log, s)
  | event :: events, log, s =>
    if allowed s event then
      (s.advance event).bind fun s' => live allowed events (log ++ s.notices event) s'
    else none

theorem Life.of_live {allowed : Stage → Event → Bool} {s t u : Stage} {log log' : List Notice}
    {events : List Event} (plain : ∀ event ∈ events, event.Plain) (life : s.Life allowed log t)
    (h : live allowed events log t = some (log', u)) : s.Life allowed log' u := by
  induction events generalizing log t with
  | nil => cases h; exact life
  | cons event events ih =>
    simp only [live] at h
    split at h
    · rename_i allows
      obtain ⟨t', step, h⟩ := Option.bind_eq_some_iff.1 h
      exact ih (fun _ hmem => plain _ (List.mem_cons_of_mem _ hmem))
        (life.tail (plain _ List.mem_cons_self) allows step) h
    · cases h

theorem Life.mono {allowed allowed' : Stage → Event → Bool} {s e : Stage} {log : List Notice}
    (h : ∀ s event, allowed s event = true → allowed' s event = true)
    (life : s.Life allowed log e) : s.Life allowed' log e := by
  induction life with
  | refl => exact .refl
  | tail _ plain allows step ih => exact ih.tail plain (h _ _ allows) step

/-- Whether the service has tasks after a notice, if it is known whether it had some before. -/
def Notice.tasks (before : Bool) : Notice → Bool
  | .started (.ok ()) => true
  | .taken => false
  | _ => before

/-- Whether the last start that succeeded has tasks that no shutdown has taken. -/
def hasTasks (log : List Notice) : Bool := log.foldl Notice.tasks false

@[simp] theorem hasTasks_concat (log : List Notice) (notice : Notice) :
    hasTasks (log ++ [notice]) = notice.tasks (hasTasks log) := by
  simp [hasTasks]

/-- Tasks come by a start. -/
theorem started_of_hasTasks {log : List Notice} (h : hasTasks log = true) :
    .started (.ok ()) ∈ log := by
  induction log using List.reverseRecOn with
  | nil => cases h
  | append_singleton log notice ih =>
    rw [hasTasks_concat] at h
    rw [List.mem_append, List.mem_singleton]
    cases notice with
    | started answer =>
      cases answer with
      | ok _ => exact .inr rfl
      | error e => exact .inl (ih h)
    | taken => cases h
    | _ => exact .inl (ih h)

/-- Tasks go by being taken. -/
theorem hasTasks_or_taken {log : List Notice} (h : .started (.ok ()) ∈ log) :
    hasTasks log = true ∨ .taken ∈ log := by
  induction log using List.reverseRecOn with
  | nil => exact absurd h List.not_mem_nil
  | append_singleton log notice ih =>
    rw [hasTasks_concat]
    rw [List.mem_append, List.mem_singleton] at h ⊢
    cases notice with
    | started answer =>
      cases answer with
      | ok _ => exact .inl rfl
      | error e => exact (ih (h.resolve_right nofun)).imp_right .inl
    | taken => exact .inr (.inr rfl)
    | _ => exact (ih (h.resolve_right nofun)).imp_right .inl

/-! ## Who has ended has ended -/

section
variable {s s' : Stage} {a : ActorId}

theorem hasEnded_worker (s : Stage) (i : Nat) :
    s.service.hasEnded (.worker i) = (s.tasks[i]?).all Task.ended := rfl

theorem hasEnded_sweeper (s : Stage) (i : Nat) :
    s.service.hasEnded (.sweeper i) = (s.sweepers[i]?).all SweeperTask.ended := rfl

theorem hasEnded_congr (tasks : s'.tasks = s.tasks) (sweepers : s'.sweepers = s.sweepers) :
    s'.service.hasEnded a = s.service.hasEnded a := by
  cases a with
  | worker i => rw [hasEnded_worker, hasEnded_worker, tasks]
  | sweeper i => rw [hasEnded_sweeper, hasEnded_sweeper, sweepers]

/-- Replacing one that has not ended leaves those that have. -/
theorem all_set_of_not {α : Type} {ended : α → Bool} {as : List α} {i j : Nat} {x : α}
    (hx : as[i]? = some x) (alive : ended x = false) (y : α) (h : (as[j]?).all ended = true) :
    ((as.set i y)[j]?).all ended = true := by
  by_cases hij : i = j
  · subst hij
    rw [hx, Option.all_some, alive] at h
    cases h
  · rw [List.getElem?_set_ne hij]
    exact h

/-- A worker's turn leaves the sweepers alone. -/
theorem sweepers_of_work {i : Nat} {exec : Executor} (hs : s.step (.work i exec) = some s') :
    s'.sweepers = s.sweepers := by
  simp only [step, Timeline.moveWorker, Option.bind_eq_bind, Option.bind_eq_some_iff,
    Option.pure_def, Option.some.injEq, Prod.exists] at hs
  obtain ⟨_, ⟨task, -, task', world, -, rfl⟩, rfl⟩ := hs
  rfl

theorem sweepers_of_sweep {i : Nat} (hs : s.step (.sweep i) = some s') :
    ∃ task task', s.sweepers[i]? = some task ∧ task.ended = false ∧
      s'.sweepers = s.sweepers.set i task' := by
  simp only [step, Timeline.moveSweeper, Option.bind_eq_bind, Option.bind_eq_some_iff,
    Option.pure_def, Option.some.injEq, Prod.exists] at hs
  obtain ⟨_, ⟨task, htask, task', world, hstep, rfl⟩, rfl⟩ := hs
  exact ⟨task, task', htask, SweeperTask.not_ended_of_step hstep, rfl⟩

theorem sweepers_of_create {k : Nat} (hs : s.step (.create k) = some s') :
    s'.sweepers = s.sweepers := by
  simp only [step, Option.bind_eq_bind, Option.bind_eq_some_iff, Option.pure_def,
    Option.some.injEq, Prod.exists] at hs
  obtain ⟨_, -, _, _, -, rfl⟩ := hs
  rfl

/-- Whoever has ended stays where he is. -/
theorem hasEnded_of_step {turn : Turn} (hs : s.step turn = some s')
    (ended : s.service.hasEnded a = true) : s'.service.hasEnded a = true := by
  have same (tasks : s'.tasks = s.tasks) (sweepers : s'.sweepers = s.sweepers) :
      s'.service.hasEnded a = true := by rw [hasEnded_congr tasks sweepers]; exact ended
  cases turn with
  | call => cases hs; exact ended
  | proceed k =>
    obtain ⟨call, call', service, -, hstep, rfl⟩ := step_proceed_iff.1 hs
    obtain ⟨tasks, sweepers⟩ := (Shutdown.advances_of_step hstep).timeline
    exact same tasks sweepers
  | work i exec =>
    obtain ⟨t, t', w, ht, hstep, -, tasks, -⟩ := step_work hs
    cases a with
    | worker j =>
      rw [hasEnded_worker, tasks]
      exact all_set_of_not ht (Task.not_ended_of_step hstep) t' ended
    | sweeper j => rw [hasEnded_sweeper, sweepers_of_work hs]; exact ended
  | sweep i =>
    obtain ⟨-, -, -, -, -, -, tasks, -⟩ := step_sweep hs
    obtain ⟨t, t', ht, alive, sweepers⟩ := sweepers_of_sweep hs
    cases a with
    | worker j => rw [hasEnded_worker, tasks]; exact ended
    | sweeper j => rw [hasEnded_sweeper, sweepers]; exact all_set_of_not ht alive t' ended
  | request id now r => cases hs; exact ended
  | create k =>
    obtain ⟨c, c', p, -, -, -, tasks, -⟩ := step_create hs
    exact same tasks (sweepers_of_create hs)
  | wait ms => cases hs; exact ended

end

end Stage
end JobPipeline
