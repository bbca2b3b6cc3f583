import JobPipeline.Proofs.Scene.Moves
import JobPipeline.Service.Basic

/-!
# What runs is what a scene allows

`Task.Moves` lists the moves of a worker in time, and `SweeperTask.Moves` those of a sweeper. What
is proved about the tasks of a service is proved by cases on these.

A worker of a scene knows no time: the cue of its operation says when its workload ends, and how. A
`Task` finds that out from its executor and the clock, and does in one move what a worker of a scene
does in up to two. Seen on the worker and the shared parts, every move of a task is a run of that
worker, so what holds in all scenes holds of tasks.
-/

namespace JobPipeline

/-- The workloads leave the shared parts alone, however they end. -/
def Executor.Plain (exec : Executor) : Prop := ∀ job, (exec job).commands = []

/-- The world once the workload of a job has begun: it is noted, and its commands are performed. -/
def Executor.begun (exec : Executor) (job : Job) (w : World) : World :=
  Command.runAll (exec job).commands
    (if (exec job).noted then { w with notes := w.notes ++ [.saw job] } else w)

/-- A workload without commands leaves but a note. -/
theorem Executor.begun_eq {exec : Executor} {job : Job} (plain : (exec job).commands = [])
    (w : World) : ∃ notes, exec.begun job w = { w with notes } := by
  rw [begun, plain]
  by_cases noted : (exec job).noted = true
  · exact ⟨w.notes ++ [.saw job], by rw [if_pos noted]; rfl⟩
  · exact ⟨w.notes, by rw [if_neg noted]; rfl⟩

/-! ## The moves of tasks -/

namespace Task

/-- The next move of a worker. -/
inductive Moves (exec : Executor) (t : Task) (w : World) : Task → World → Prop
  | quit (looking : t.worker = .looking) (told : w.isFired t.stop = true) :
      Moves exec t w (t.goto .stopped) w
  | look (looking : t.worker = .looking) (untold : w.isFired t.stop = false) :
      Moves exec t w (t.look w).1 (t.look w).2
  | desert (waiting : t.worker = .waiting) (told : w.isFired t.stop = true) :
      Moves exec t w (t.goto .stopped) (w.withQueue (w.pipeline.queue.abandon t.receiver))
  | serve (waiting : t.worker = .waiting) (untold : w.isFired t.stop = false)
      (served : w.pipeline.queue.canServe t.receiver = true) :
      Moves exec t w (t.look w).1 (t.look w).2
  /-- An operation on the id in hands that starts no workload. -/
  | handle {h h' : Handling} {pipeline : Pipeline} (busy : t.worker = .handling h)
      (step : h.step (w.isFired t.stop) w.pipeline = some (h', pipeline))
      (idle : ∀ job, h' ≠ .working job) :
      Moves exec t w (t.goto (.handling h')) { w with pipeline }
  | begin {job : Job} (ready : t.worker = .handling (.ready job))
      (untold : w.isFired t.stop = false) :
      Moves exec t w
        { t with
          worker := .handling (.working job),
          due := some ((exec.begun job w).clock + (exec job).duration, (exec job).ending) }
        (exec.begun job w)
  /-- The workload takes no time. -/
  | rush {job : Job} (ready : t.worker = .handling (.ready job))
      (untold : w.isFired t.stop = false) :
      Moves exec t w (t.conclude job (exec job).ending) (exec.begun job w)
  | conclude {job : Job} {time : Nat} {ending : Ending}
      (working : t.worker = .handling (.working job)) (untold : w.isFired t.stop = false)
      (due : t.due = some (time, ending)) (late : time ≤ w.clock) :
      Moves exec t w (t.conclude job ending) w
  | leave (aborted : t.worker = .handling (.done .aborted)) (loops : t.once = false) :
      Moves exec t w (t.goto .stopped) w
  | next {outcome : Outcome} (kept : outcome ≠ .aborted)
      (done : t.worker = .handling (.done outcome)) (loops : t.once = false) :
      Moves exec t w (t.goto .looking) w

variable {exec : Executor} {t t' : Task} {w w' : World}

private theorem of_some_eq {α β : Type} {x : α × β} {a : α} {b : β} (h : some x = some (a, b)) :
    a = x.1 ∧ b = x.2 := by
  cases h; exact ⟨rfl, rfl⟩

theorem moves_of_step (hs : t.step exec w = some (t', w')) : t.Moves exec w t' w' := by
  have running (untold : ¬ w.isFired t.stop = true) : w.isFired t.stop = false := by
    simpa using untold
  have gives {h : Handling} (busy : t.worker = .handling h) (told : w.isFired t.stop = true)
      (step : h.step true w.pipeline = some (.done .aborted, w.pipeline)) :
      t.Moves exec w (t.goto (.handling (.done .aborted))) w :=
    .handle busy (told ▸ step) nofun
  cases hw : t.worker with
  | looking =>
    simp only [step, hw] at hs
    split at hs
    · rename_i told; cases hs; exact .quit hw told
    · rename_i untold
      obtain ⟨rfl, rfl⟩ := of_some_eq hs
      exact .look hw (running untold)
  | waiting =>
    simp only [step, hw] at hs
    split at hs
    · rename_i told; cases hs; exact .desert hw told
    · rename_i untold
      split at hs
      · rename_i served
        obtain ⟨rfl, rfl⟩ := of_some_eq hs
        exact .serve hw (running untold) served
      · cases hs
  | handling h =>
    cases h with
    | ready job =>
      simp only [step, hw] at hs
      split at hs
      · rename_i told; cases hs; exact gives hw told rfl
      · rename_i untold
        obtain ⟨rfl, rfl⟩ := of_some_eq hs
        by_cases instant : (exec job).duration = 0
        · have rushed : t.begin exec job w = (t.conclude job (exec job).ending, exec.begun job w) :=
            if_pos instant
          rw [rushed]
          exact .rush hw (running untold)
        · have begun : t.begin exec job w = (_, exec.begun job w) := if_neg instant
          rw [begun]
          exact .begin hw (running untold)
    | working job =>
      simp only [step, hw] at hs
      split at hs
      · rename_i told; cases hs; exact gives hw told rfl
      · rename_i untold
        split at hs
        · rename_i time ending due
          split at hs
          · rename_i late; cases hs; exact .conclude hw (running untold) due late
          · cases hs
        · cases hs
    | done outcome =>
      simp only [step, hw] at hs
      split at hs
      · cases hs
      · rename_i loops
        have loops : t.once = false := by simpa using loops
        cases hs
        by_cases aborted : outcome = .aborted
        · subst aborted; exact .leave hw loops
        · rw [if_neg aborted]; exact .next aborted hw loops
    | _ =>
      simp only [step, hw] at hs
      obtain ⟨⟨h', p'⟩, hh, hmoved⟩ := Option.map_eq_some_iff.1 hs
      cases hmoved
      exact .handle hw hh fun job starts => nomatch (Handling.proceeds_of_step hh).ready starts
  | stopped => simp [step, hw] at hs
  | died => simp [step, hw] at hs

end Task

namespace SweeperTask

/-- The next move of a sweeper. -/
inductive Moves (t : SweeperTask) (w : World) : SweeperTask → World → Prop
  | quit {time : Nat} (resting : t.sweeper = .resting time) (told : w.isFired t.stop = true) :
      Moves t w { t with sweeper := .stopped } w
  | rouse {time : Nat} (resting : t.sweeper = .resting time) (untold : w.isFired t.stop = false)
      (late : time ≤ w.clock) : Moves t w { t with sweeper := .sweeping .recovering } w
  | sweep {s s' : Sweep} {pipeline : Pipeline} (sweeping : t.sweeper = .sweeping s)
      (proceeds : s.Proceeds (w.isFired t.stop) w.pipeline s' pipeline) :
      Moves t w { t with sweeper := .sweeping s' } { w with pipeline }
  | rest {report : SweepReport} (done : t.sweeper = .sweeping (.done report)) :
      Moves t w { t with sweeper := .resting (w.clock + t.interval) } w

theorem moves_of_step {t t' : SweeperTask} {w w' : World} (hs : t.step w = some (t', w')) :
    t.Moves w t' w' := by
  cases ht : t.sweeper with
  | resting time =>
    simp only [step, ht] at hs
    split at hs
    · rename_i told; cases hs; exact .quit ht told
    · rename_i untold
      split at hs
      · rename_i late; cases hs; exact .rouse ht (by simpa using untold) late
      · cases hs
  | sweeping s =>
    cases s with
    | done report =>
      simp only [step, ht] at hs
      cases hs
      exact .rest ht
    | _ =>
      simp only [step, ht] at hs
      obtain ⟨⟨s', p'⟩, hh, hmoved⟩ := Option.map_eq_some_iff.1 hs
      cases hmoved
      exact .sweep ht (Sweep.proceeds_of_step hh)
  | stopped => simp [step, ht] at hs

end SweeperTask

/-! ## A move as a run -/

/-- A run of the worker `r` alone. -/
def Worker.Runs (r : ReceiverId) : Worker × Pipeline → Worker × Pipeline → Prop :=
  Relation.ReflTransGen fun x y => ∃ cue, x.1.step r cue x.2 = some y

namespace Task

variable {exec : Executor} {t t' : Task} {w w' : World}

theorem look_refines (t : Task) (w : World) (cue : Cue) (hcue : cue.stopped = false) :
    Worker.looking.step t.receiver cue w.pipeline =
      some ((t.look w).1.worker, (t.look w).2.pipeline) := by
  simp only [Worker.step, hcue, look, Worker.look]
  cases (w.pipeline.queue.receive t.receiver).1 <;> rfl

/-- **Every move of a task whose workloads leave the shared parts alone is a run of its worker.** -/
theorem step_refines (plain : exec.Plain) (hs : t.step exec w = some (t', w')) :
    Worker.Runs t.receiver (t.worker, w.pipeline) (t'.worker, w'.pipeline) := by
  have begins {job : Job} (ready : t.worker = .handling (.ready job)) :
      Worker.Runs t.receiver (t.worker, w.pipeline)
        (.handling (.working job), (exec.begun job w).pipeline) := by
    obtain ⟨notes, begun⟩ := Executor.begun_eq (plain job) w
    rw [ready, begun]
    exact .single ⟨⟨false, .panic⟩, rfl⟩
  cases moves_of_step hs with
  | quit looking => rw [looking]; exact .single ⟨⟨true, .panic⟩, rfl⟩
  | look looking => rw [looking]; exact .single ⟨⟨false, .panic⟩, look_refines t w _ rfl⟩
  | desert waiting => rw [waiting]; exact .single ⟨⟨true, .panic⟩, rfl⟩
  | serve waiting _ served =>
    rw [waiting]
    refine .single ⟨⟨false, .panic⟩, ?_⟩
    simp only [Worker.step, Bool.false_eq_true, if_false, served, if_true]
    exact look_refines t w ⟨false, .panic⟩ rfl
  | handle busy step =>
    rw [busy]
    exact .single ⟨⟨w.isFired t.stop, .panic⟩, Worker.step_handling step⟩
  | begin ready => exact begins ready
  | @rush job ready =>
    refine (begins ready).tail ⟨⟨false, (exec job).ending⟩, ?_⟩
    cases (exec job).ending <;> rfl
  | @conclude job _ ending working =>
    rw [working]
    refine .single ⟨⟨false, ending⟩, ?_⟩
    cases ending <;> rfl
  | leave aborted => rw [aborted]; exact .single ⟨⟨false, .panic⟩, rfl⟩
  | next kept done =>
    rw [done]
    exact .single ⟨⟨false, .panic⟩, by simp [Worker.step, kept, goto]⟩

end Task

end JobPipeline
