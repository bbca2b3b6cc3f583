import JobPipeline.Service.Shutdown
import Mathlib

/-!
# A service among its callers

A `Stage` is a service together with the calls that are under way: shutdowns, of which there may be
any number at once, and creations. `Stage.step` gives one of all these the turn, a worker, the
sweeper, a call, and the turns may come in any order. Time passes when it likes.

The workloads are chosen anew at every turn of a worker, so what they come to may depend on
anything. `Executor.Yields` says that they come to a result, that is, do not take their worker down,
and leave the shared parts alone.

A run of a stage (`Stage.Run`) keeps a log of where the workers got to. From it can be read who was
handed which id (`Stage.handed`) and which ids were claimed (`Stage.claimed`).
-/

namespace JobPipeline

theorem mem_set_self {α : Type} {as : List α} {i : Nat} {a : α} (h : as[i]? = some a) (b : α) :
    b ∈ as.set i b :=
  List.mem_set (List.getElem?_eq_some_iff.1 h).1 b

/-- The others stay when one is replaced. -/
theorem mem_set_of_ne {α : Type} {as : List α} {i : Nat} {a c : α} (h : as[i]? = some a)
    (hc : c ∈ as) (hne : c ≠ a) (b : α) : c ∈ as.set i b := by
  obtain ⟨j, hj⟩ := List.mem_iff_getElem?.1 hc
  have hji : i ≠ j := by
    rintro rfl
    exact hne (Option.some.inj (hj.symm.trans h))
  exact List.mem_of_getElem? ((List.getElem?_set_ne hji).trans hj)

/-- The workloads end with one of the given results and touch nothing. -/
def Executor.Yields (ok : WorkResult → Prop) (exec : Executor) : Prop :=
  ∀ job, (exec job).commands = [] ∧ ∃ r, ok r ∧ (exec job).ending = .result r

/-- A service and the calls under way. -/
structure Stage where
  service : Service
  calls : List Shutdown
  creations : List Creation

/-- Whose turn it is. -/
inductive Turn
  /-- Somebody asks for a shutdown. -/
  | call
  /-- A shutdown makes its next move. -/
  | proceed (k : Nat)
  | work (i : Nat) (exec : Executor)
  | sweep (i : Nat)
  /-- Somebody asks for a job. -/
  | request (id : JobId) (now : Instant) (r : Service.JobRequest)
  /-- A creation makes its next move. -/
  | create (k : Nat)
  | wait (ms : Nat)

def Turn.Yields (ok : WorkResult → Prop) : Turn → Prop
  | .work _ exec => exec.Yields ok
  | _ => True

namespace Stage

abbrev world (s : Stage) : World := s.service.timeline.world

abbrev pipeline (s : Stage) : Pipeline := s.world.pipeline

abbrev store (s : Stage) : Store := s.pipeline.store

abbrev queue (s : Stage) : Queue := s.pipeline.queue

abbrev tasks (s : Stage) : List Task := s.service.timeline.workers

def step (s : Stage) : Turn → Option Stage
  | .call => some { s with calls := s.calls ++ [.begun] }
  | .proceed k => do
    let call ← s.calls[k]?
    let (call, service) ← call.step s.service
    return { s with service, calls := s.calls.set k call }
  | .work i exec => do
    let timeline ← { s.service.timeline with executor := exec }.moveWorker i
    return { s with service := { s.service with timeline } }
  | .sweep i => do
    let timeline ← s.service.timeline.moveSweeper i
    return { s with service := { s.service with timeline } }
  | .request id now r =>
    some { s with creations := s.creations ++ [.storing (s.service.jobFor id now r)] }
  | .create k => do
    let c ← s.creations[k]?
    let (c, pipeline) ← c.step (!s.service.isAccepting) s.service.pipeline
    return { s with service := s.service.withPipeline pipeline, creations := s.creations.set k c }
  | .wait ms =>
    let timeline := s.service.timeline.movedTo (s.world.clock + ms)
    some { s with service := { s.service with timeline } }

/-- Positions of workers, and where they have got to. -/
abbrev Log := List (Nat × Worker)

/-- What a turn adds to the log. -/
def news (after : Stage) : Turn → Log
  | .work i _ => (after.tasks[i]?).toList.map fun t => (i, t.worker)
  | _ => []

/-- The ids handed out, each with the worker that got it. -/
def handed (log : Log) : List (Nat × JobId) :=
  log.filterMap fun
    | (i, .handling (.claiming id)) => some (i, id)
    | _ => none

/-- The ids of the jobs claimed. -/
def claimed (log : Log) : List JobId :=
  log.filterMap fun
    | (_, .handling (.claimed job)) => some job.id
    | _ => none

theorem mem_claimed {log : Log} {id : JobId} :
    id ∈ claimed log ↔ ∃ i job, (i, .handling (.claimed job)) ∈ log ∧ job.id = id := by
  simp only [claimed, List.mem_filterMap]
  constructor
  · rintro ⟨⟨i, w⟩, hmem, h⟩
    split at h
    · rename_i heq
      cases heq
      exact ⟨i, _, hmem, Option.some.inj h⟩
    · cases h
  · rintro ⟨i, job, hmem, rfl⟩
    exact ⟨_, hmem, rfl⟩

theorem handed_singleton_of_ne {w : Worker} (h : ∀ id, w ≠ .handling (.claiming id)) (i : Nat) :
    handed [(i, w)] = [] := by
  simp only [handed, List.filterMap_cons, List.filterMap_nil]
  split
  · rfl
  · rename_i heq
    split at heq
    · rename_i hpair
      cases hpair
      exact absurd rfl (h _)
    · cases heq

@[simp] theorem claimed_append (log log' : Log) :
    claimed (log ++ log') = claimed log ++ claimed log' :=
  List.filterMap_append

@[simp] theorem handed_append (log log' : Log) :
    handed (log ++ log') = handed log ++ handed log' :=
  List.filterMap_append

/-- A run in which every turn is allowed and every workload ends with one of the given results. -/
inductive Run (ok : WorkResult → Prop) (allowed : Stage → Turn → Bool) (s : Stage) :
    Log → Stage → Prop
  | refl : Run ok allowed s [] s
  | tail {log : Log} {t t' : Stage} {turn : Turn} (run : Run ok allowed s log t)
      (yields : turn.Yields ok) (allows : allowed t turn = true) (step : t.step turn = some t') :
      Run ok allowed s (log ++ t'.news turn) t'

/-- The log and the end of a given run, if all its turns are allowed and possible. -/
def play (allowed : Stage → Turn → Bool) : List Turn → Log → Stage → Option (Log × Stage)
  | [], log, s => some (log, s)
  | turn :: turns, log, s =>
    if allowed s turn then
      (s.step turn).bind fun s' => play allowed turns (log ++ s'.news turn) s'
    else none

namespace Run

variable {ok : WorkResult → Prop} {allowed : Stage → Turn → Bool} {s t u : Stage} {log log' : Log}

theorem trans (run : s.Run ok allowed log t) (more : t.Run ok allowed log' u) :
    s.Run ok allowed (log ++ log') u := by
  induction more with
  | refl => rw [List.append_nil]; exact run
  | tail _ yields allows step ih => rw [← List.append_assoc]; exact ih.tail yields allows step

theorem of_play {turns : List Turn} (yields : ∀ turn ∈ turns, turn.Yields ok)
    (run : s.Run ok allowed log t) (h : play allowed turns log t = some (log', u)) :
    s.Run ok allowed log' u := by
  induction turns generalizing log t with
  | nil => cases h; exact run
  | cons turn turns ih =>
    simp only [play] at h
    split at h
    · rename_i allows
      obtain ⟨t', step, h⟩ := Option.bind_eq_some_iff.1 h
      exact ih (fun _ hmem => yields _ (List.mem_cons_of_mem _ hmem))
        (run.tail (yields _ List.mem_cons_self) allows step) h
    · cases h

/-- What holds at the start and not at the end ceases to hold at one of the turns. -/
theorem crossing {P : Stage → Prop} (run : s.Run ok allowed log u) (start : P s) (finish : ¬ P u) :
    ∃ before a turn b after, s.Run ok allowed before a ∧ P a ∧ turn.Yields ok ∧
      allowed a turn = true ∧ a.step turn = some b ∧ ¬ P b ∧ b.Run ok allowed after u ∧
      log = before ++ b.news turn ++ after := by
  induction run with
  | refl => exact absurd start finish
  | @tail log t t' turn run yields allows step ih =>
    by_cases hP : P t
    · exact ⟨log, t, turn, t', [], run, hP, yields, allows, step, finish, .refl, by simp⟩
    · obtain ⟨before, a, turn', b, after, hrun, ha, hy, hal, hs, hb, more, rfl⟩ := ih hP
      exact ⟨before, a, turn', b, _, hrun, ha, hy, hal, hs, hb, more.tail yields allows step,
        by simp⟩

end Run

/-! ## Single turns -/

section
variable {s s' : Stage}

theorem step_proceed_iff {k : Nat} :
    s.step (.proceed k) = some s' ↔ ∃ call call' service, s.calls[k]? = some call ∧
      call.step s.service = some (call', service) ∧
      s' = { s with service, calls := s.calls.set k call' } := by
  simp only [step, Option.bind_eq_bind, Option.bind_eq_some_iff, Option.pure_def,
    Option.some.injEq, Prod.exists]
  constructor
  · rintro ⟨call, hcall, call', service, hs, rfl⟩; exact ⟨call, call', service, hcall, hs, rfl⟩
  · rintro ⟨call, call', service, hcall, hs, rfl⟩; exact ⟨call, hcall, call', service, hs, rfl⟩

/-- A worker's turn changes that worker and the world. -/
theorem step_work {i : Nat} {exec : Executor} (h : s.step (.work i exec) = some s') :
    ∃ task task' world, s.tasks[i]? = some task ∧
      task.step exec s.world = some (task', world) ∧ s'.world = world ∧
      s'.tasks = s.tasks.set i task' ∧ s'.service.handles = s.service.handles ∧
      s'.calls = s.calls ∧ s'.creations = s.creations := by
  simp only [step, Timeline.moveWorker, Option.bind_eq_bind, Option.bind_eq_some_iff,
    Option.pure_def, Option.some.injEq, Prod.exists] at h
  obtain ⟨_, ⟨task, htask, task', world, hs, rfl⟩, rfl⟩ := h
  exact ⟨task, task', world, htask, hs, rfl, rfl, rfl, rfl, rfl⟩

theorem step_sweep {i : Nat} (h : s.step (.sweep i) = some s') :
    ∃ task task' world, s.service.timeline.sweepers[i]? = some task ∧
      task.step s.world = some (task', world) ∧ s'.world = world ∧ s'.tasks = s.tasks ∧
      s'.service.handles = s.service.handles ∧ s'.calls = s.calls ∧
      s'.creations = s.creations := by
  simp only [step, Timeline.moveSweeper, Option.bind_eq_bind, Option.bind_eq_some_iff,
    Option.pure_def, Option.some.injEq, Prod.exists] at h
  obtain ⟨_, ⟨task, htask, task', world, hs, rfl⟩, rfl⟩ := h
  exact ⟨task, task', world, htask, hs, rfl, rfl, rfl, rfl, rfl⟩

theorem step_create {k : Nat} (h : s.step (.create k) = some s') :
    ∃ c c' pipeline, s.creations[k]? = some c ∧
      c.step (!s.service.isAccepting) s.pipeline = some (c', pipeline) ∧
      s'.world = { s.world with pipeline } ∧ s'.tasks = s.tasks ∧
      s'.service.handles = s.service.handles ∧ s'.calls = s.calls ∧
      s'.creations = s.creations.set k c' := by
  simp only [step, Option.bind_eq_bind, Option.bind_eq_some_iff, Option.pure_def,
    Option.some.injEq, Prod.exists] at h
  obtain ⟨c, hc, c', pipeline, hs, rfl⟩ := h
  exact ⟨c, c', pipeline, hc, hs, rfl, rfl, rfl, rfl, rfl⟩

end

end Stage
end JobPipeline
