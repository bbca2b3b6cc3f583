import JobPipeline.Proofs.Service.Life

/-!
# Workers among meddling workloads

A workload may perform commands on the shared parts, and then it can do to a worker whatever an
operator can: close the queue, fire a token. It cannot take a seat at the queue or give one up, open
the queue again, or take a token back (`World.Meddles`). So there is little to know of a worker, and
it holds whatever the workloads are (`Task.Steady`): it has its own name and its own seat, it stops
only if the queue is closed or its token fired, and its death was the ending of a workload that
it began (`Task.goes_of_step`).
-/

namespace JobPipeline

/-! ## What others do to a worker's world -/

namespace World

/-- Nobody opens a closed queue, and no token is taken back. -/
structure Lasts (w w' : World) : Prop where
  closed : w.pipeline.queue.isOpen = false → w'.pipeline.queue.isOpen = false
  fired : ∀ t, w.isFired t = true → w'.isFired t = true

/-- What anybody may do who is no worker at the queue: the line is left as it is. -/
structure Meddles (w w' : World) : Prop extends w.Lasts w' where
  line : w'.pipeline.queue.suspended = w.pipeline.queue.suspended

/-- The queue is as open as before, and the same tokens are fired. -/
def Spares (w w' : World) : Prop :=
  w'.pipeline.queue.isOpen = w.pipeline.queue.isOpen ∧ w'.fired = w.fired

variable {w w' w'' : World}

theorem Lasts.trans (h : w.Lasts w') (h' : w'.Lasts w'') : w.Lasts w'' :=
  ⟨fun closed => h'.closed (h.closed closed), fun t fired => h'.fired t (h.fired t fired)⟩

theorem Meddles.refl : w.Meddles w := ⟨⟨id, fun _ => id⟩, rfl⟩

theorem Meddles.trans (h : w.Meddles w') (h' : w'.Meddles w'') : w.Meddles w'' :=
  ⟨h.toLasts.trans h'.toLasts, h'.line.trans h.line⟩

theorem Spares.lasts (spares : w.Spares w') : w.Lasts w' where
  closed closed := spares.1.trans closed
  fired t fired := by rw [isFired, spares.2]; exact fired

theorem Spares.meddles (spares : w.Spares w')
    (line : w'.pipeline.queue.suspended = w.pipeline.queue.suspended) : w.Meddles w' :=
  ⟨spares.lasts, line⟩

theorem meddles_fire (w : World) (t : Token) : w.Meddles (w.fire t) :=
  ⟨⟨id, fun t' fired => by rw [isFired_fire, fired, Bool.or_true]⟩, rfl⟩

end World

/-- An offer leaves the queue as open as it was, and the line at it. -/
theorem Pipeline.queue_offer (p : Pipeline) (id : JobId) :
    (p.offer id).2.queue.suspended = p.queue.suspended ∧
      (p.offer id).2.queue.isOpen = p.queue.isOpen :=
  ⟨Queue.suspended_offer p.queue id, Queue.isOpen_offer p.queue id⟩

/-- So does a sweep. -/
theorem Sweep.Proceeds.queue {stopped : Bool} {s s' : Sweep} {p p' : Pipeline}
    (proceeds : s.Proceeds stopped p s' p') :
    p'.queue.suspended = p.queue.suspended ∧ p'.queue.isOpen = p.queue.isOpen := by
  cases proceeds with
  | offer id => exact p.queue_offer id
  | _ => exact ⟨rfl, rfl⟩

theorem Sweep.queue_run (stopped : Bool) (p : Pipeline) :
    (Sweep.run stopped p).2.queue.suspended = p.queue.suspended ∧
      (Sweep.run stopped p).2.queue.isOpen = p.queue.isOpen := by
  unfold run
  generalize Sweep.recovering = s
  generalize bound p = fuel
  induction fuel generalizing s p with
  | zero => exact ⟨rfl, rfl⟩
  | succ fuel ih =>
    simp only [iterate]
    split
    · exact ⟨rfl, rfl⟩
    · rename_i x hs
      obtain ⟨line, isOpen⟩ := (proceeds_of_step hs).queue
      exact ⟨(ih x.2 x.1).1.trans line, (ih x.2 x.1).2.trans isOpen⟩

namespace Command

theorem meddles_run (c : Command) (w : World) : w.Meddles (c.run w).2 := by
  have same (w' : World) (queue : w'.pipeline.queue = w.pipeline.queue)
      (fired : w'.fired = w.fired) : w.Meddles w' :=
    World.Spares.meddles ⟨by rw [queue], fired⟩ (by rw [queue])
  cases c with
  | put job token => simp only [run]; split <;> exact same _ rfl rfl
  | claim id => simp only [run]; split <;> exact same _ rfl rfl
  | succeed id => simp only [run]; split <;> exact same _ rfl rfl
  | fail id reason => simp only [run]; split <;> exact same _ rfl rfl
  | recover token => simp only [run]; split <;> exact same _ rfl rfl
  | offer id => exact World.Spares.meddles ⟨Queue.isOpen_offer _ _, rfl⟩ (Queue.suspended_offer _ _)
  | receive => exact World.Spares.meddles ⟨Queue.isOpen_poll _, rfl⟩ (Queue.suspended_poll _)
  | close => exact ⟨⟨fun _ => rfl, fun _ => id⟩, rfl⟩
  | fire token => exact w.meddles_fire token
  | sweep token =>
    obtain ⟨line, isOpen⟩ := Sweep.queue_run (w.isFired token) w.pipeline
    exact World.Spares.meddles ⟨isOpen, rfl⟩ line
  | _ => exact same _ rfl rfl

theorem meddles_runAll (cs : List Command) (w : World) : w.Meddles (runAll cs w) := by
  unfold runAll
  induction cs generalizing w with
  | nil => exact .refl
  | cons c cs ih =>
    have noted : (c.run w).2.Meddles
        { (c.run w).2 with notes := (c.run w).2.notes ++ [.reply (c.run w).1] } :=
      ⟨⟨id, fun _ => id⟩, rfl⟩
    exact ((meddles_run c w).trans noted).trans (ih _)

end Command

/-! ## A worker's own moves -/

/-- A step of a handling leaves the queue as open as it was, and the line at it; it gives up only if
it is told to. -/
theorem Handling.Proceeds.keeps {stopped : Bool} {h h' : Handling} {p p' : Pipeline}
    (proceeds : h.Proceeds stopped p h' p') :
    p'.queue.suspended = p.queue.suspended ∧ p'.queue.isOpen = p.queue.isOpen ∧
      (h' = .done .aborted → stopped = true) := by
  cases proceeds with
  | forgo _ stops => exact ⟨rfl, rfl, fun _ => stops⟩
  | interrupt _ stops => exact ⟨rfl, rfl, fun _ => stops⟩
  | report _ _ _ result => cases result <;> exact ⟨rfl, rfl, nofun⟩
  | requeue job =>
    obtain ⟨line, isOpen⟩ := p.queue_offer job.id
    exact ⟨line, isOpen, nofun⟩
  | _ => exact ⟨rfl, rfl, nofun⟩

namespace Task

/-- A move of a worker that goes on for ever, whatever the workloads. -/
inductive Goes (exec : Executor) (t : Task) (w : World) : Task → World → Prop
  | quit (looking : t.worker = .looking) (told : w.isFired t.stop = true) :
      Goes exec t w (t.goto .stopped) w
  | desert (waiting : t.worker = .waiting) (told : w.isFired t.stop = true) :
      Goes exec t w (t.goto .stopped) (w.withQueue (w.pipeline.queue.abandon t.receiver))
  | look {receipt : Receipt} {queue : Queue} (free : t.worker.Free)
      (received : w.pipeline.queue.receive t.receiver = (receipt, queue)) :
      Goes exec t w (t.goto (Worker.answered receipt)) (w.withQueue queue)
  | handle {h h' : Handling} {pipeline : Pipeline} (busy : t.worker = .handling h)
      (step : h.step (w.isFired t.stop) w.pipeline = some (h', pipeline))
      (idle : ∀ job, h' ≠ .working job) :
      Goes exec t w (t.goto (.handling h')) { w with pipeline }
  | begin {job : Job} {w' : World} (ready : t.worker = .handling (.ready job))
      (meddles : w.Meddles w') (spares : (exec job).commands = [] → w.Spares w') (time : Nat) :
      Goes exec t w
        { t with worker := .handling (.working job), due := some (time, (exec job).ending) } w'
  /-- The workload takes no time. -/
  | rush {job : Job} {w' : World} (ready : t.worker = .handling (.ready job))
      (meddles : w.Meddles w') (spares : (exec job).commands = [] → w.Spares w') :
      Goes exec t w (t.conclude job (exec job).ending) w'
  | conclude {job : Job} {time : Nat} {ending : Ending} (working : t.worker = .handling (.working job))
      (due : t.due = some (time, ending)) : Goes exec t w (t.conclude job ending) w
  | leave (aborted : t.worker = .handling (.done .aborted)) : Goes exec t w (t.goto .stopped) w
  | next {outcome : Outcome} (kept : t.worker = .handling (.done outcome)) :
      Goes exec t w (t.goto .looking) w

variable {exec : Executor} {t t' : Task} {w w' : World}

theorem meddles_begun (exec : Executor) (job : Job) (w : World) : w.Meddles (exec.begun job w) := by
  have noted (notes : List Note) : w.Meddles { w with notes } := ⟨⟨id, fun _ => id⟩, rfl⟩
  refine World.Meddles.trans ?_ (Command.meddles_runAll _ _)
  split
  · exact noted _
  · exact .refl

theorem spares_begun {job : Job} (plain : (exec job).commands = []) (w : World) :
    w.Spares (exec.begun job w) := by
  obtain ⟨notes, begun⟩ := Executor.begun_eq plain w
  rw [begun]
  exact ⟨rfl, rfl⟩

theorem goes_of_step (hs : t.step exec w = some (t', w')) : t.Goes exec w t' w' := by
  have looked (free : t.worker.Free) : t.Goes exec w (t.look w).1 (t.look w).2 := by
    unfold look
    rcases hreceived : w.pipeline.queue.receive t.receiver with ⟨receipt, queue⟩
    cases receipt <;> exact .look free hreceived
  cases moves_of_step hs with
  | quit looking told => exact .quit looking told
  | look looking => exact looked (.inl looking)
  | desert waiting told => exact .desert waiting told
  | serve waiting => exact looked (.inr waiting)
  | handle busy step idle => exact .handle busy step idle
  | begin ready => exact .begin ready (meddles_begun _ _ w) (spares_begun · w) _
  | rush ready => exact .rush ready (meddles_begun _ _ w) (spares_begun · w)
  | conclude working _ due => exact .conclude working due
  | leave aborted => exact .leave aborted
  | next _ done => exact .next done

/-- What is known of the worker at a position.

  * `name`      — at the queue it goes by its position.
  * `stop`      — it listens to the token of the workers.
  * `loops`     — it does not stop after one id.
  * `timed`     — a workload under way is due at some time.
  * `dismissed` — it gives up or goes home only if it was told to or the queue has closed. -/
structure Steady (i : Nat) (t : Task) (w : World) : Prop where
  name : t.receiver = i
  stop : t.stop = .workers
  loops : t.once = false
  timed : ∀ job, t.worker = .handling (.working job) → t.due.isSome = true
  dismissed : t.worker = .stopped ∨ t.worker = .handling (.done .aborted) →
    w.isFired .workers = true ∨ w.pipeline.queue.isOpen = false

/-- The worker has died, or its workload will take it down. -/
def Doomed (t : Task) : Prop := t.worker = .died ∨ ∃ time, t.due = some (time, .panic)

theorem steady_spawn (i : Nat) (w : World) : (spawn i .workers).Steady i w :=
  ⟨rfl, rfl, rfl, by simp [spawn], by simp [spawn]⟩

theorem not_doomed_spawn (i : Nat) (stop : Token) : ¬ (spawn i stop).Doomed := by
  rintro (h | ⟨_, h⟩) <;> cases h

theorem not_doomed_goto (t : Task) {worker : Worker} (alive : worker ≠ .died) :
    ¬ (t.goto worker).Doomed := by
  rintro (h | ⟨_, h⟩)
  · exact alive h
  · cases h

theorem conclude_ne_waiting (t : Task) (job : Job) (ending : Ending) :
    (t.conclude job ending).worker ≠ .waiting := by
  cases ending <;> simp [conclude, goto]

theorem Steady.lasts {i : Nat} (h : t.Steady i w) (lasts : w.Lasts w') : t.Steady i w' :=
  ⟨h.name, h.stop, h.loops, h.timed, fun gone =>
    (h.dismissed gone).imp (lasts.fired _) lasts.closed⟩

/-- A steady worker is back from its loop or has been taken down, or it has not ended. -/
theorem Steady.ended_iff {i : Nat} (h : t.Steady i w) :
    t.ended = true ↔ t.worker = .stopped ∨ t.worker = .died := by
  simp only [ended, h.loops, Bool.false_and, Bool.or_false]
  cases t.worker <;> simp [Worker.ended]

namespace Goes

theorem lasts (goes : t.Goes exec w t' w') : w.Lasts w' := by
  cases goes with
  | begin _ meddles => exact meddles.toLasts
  | rush _ meddles => exact meddles.toLasts
  | look _ received =>
    refine World.Spares.lasts ⟨?_, rfl⟩
    exact (congrArg (·.2.isOpen) received.symm).trans (Queue.isOpen_receive _ _)
  | handle _ step =>
    obtain ⟨-, isOpen, -⟩ := (Handling.proceeds_of_step step).keeps
    exact World.Spares.lasts ⟨isOpen, rfl⟩
  | _ => exact World.Spares.lasts ⟨rfl, rfl⟩

theorem spares (goes : t.Goes exec w t' w') (plain : exec.Plain) : w.Spares w' := by
  cases goes with
  | begin _ _ spares => exact spares (plain _)
  | rush _ _ spares => exact spares (plain _)
  | look _ received =>
    exact ⟨(congrArg (·.2.isOpen) received.symm).trans (Queue.isOpen_receive _ _), rfl⟩
  | handle _ step =>
    obtain ⟨-, isOpen, -⟩ := (Handling.proceeds_of_step step).keeps
    exact ⟨isOpen, rfl⟩
  | _ => exact ⟨rfl, rfl⟩

/-- A worker's seat at the queue is its own. -/
theorem seats (goes : t.Goes exec w t' w') (nodup : w.pipeline.queue.suspended.Nodup)
    (mine : t.receiver ∈ w.pipeline.queue.suspended ↔ t.worker = .waiting) :
    w'.pipeline.queue.suspended.Nodup ∧
      (t.receiver ∈ w'.pipeline.queue.suspended ↔ t'.worker = .waiting) ∧
      ∀ other, other ≠ t.receiver →
        (other ∈ w'.pipeline.queue.suspended ↔ other ∈ w.pipeline.queue.suspended) := by
  have away (line : w'.pipeline.queue.suspended = w.pipeline.queue.suspended)
      (before : t.worker ≠ .waiting) (after : t'.worker ≠ .waiting) :
      w'.pipeline.queue.suspended.Nodup ∧
        (t.receiver ∈ w'.pipeline.queue.suspended ↔ t'.worker = .waiting) ∧
        ∀ other, other ≠ t.receiver →
          (other ∈ w'.pipeline.queue.suspended ↔ other ∈ w.pipeline.queue.suspended) := by
    rw [line]
    exact ⟨nodup, iff_of_false (mt mine.1 before) after, fun _ _ => Iff.rfl⟩
  have busy {h : Handling} (hw : t.worker = .handling h) : t.worker ≠ .waiting := by
    simp [hw]
  cases goes with
  | quit looking => exact away rfl (by simp [looking]) (by simp [goto])
  | desert waiting =>
    refine ⟨nodup.filter _, iff_of_false ?_ (by simp [goto]), fun other hne => ?_⟩
    · simp [World.withQueue, Queue.abandon]
    · simp [World.withQueue, Queue.abandon, hne]
  | @look receipt _ free received =>
    obtain ⟨nodup', hmine, others⟩ := Queue.receive_seats nodup t.receiver
    rw [received] at nodup' hmine others
    refine ⟨nodup', hmine.trans ?_, others⟩
    cases receipt <;> simp [goto, Worker.answered]
  | handle hw step => exact away (Handling.proceeds_of_step step).keeps.1 (busy hw) (by simp [goto])
  | begin ready meddles => exact away meddles.line (busy ready) (by simp)
  | rush ready meddles => exact away meddles.line (busy ready) (t.conclude_ne_waiting _ _)
  | conclude working due => exact away rfl (busy working) (t.conclude_ne_waiting _ _)
  | leave aborted => exact away rfl (busy aborted) (by simp [goto])
  | next kept => exact away rfl (busy kept) (by simp [goto])

theorem steady {i : Nat} (goes : t.Goes exec w t' w') (h : t.Steady i w) : t'.Steady i w' := by
  have lasts := goes.lasts
  have goto {worker : Worker} (idle : ∀ job, worker ≠ .handling (.working job))
      (dismissed : worker = .stopped ∨ worker = .handling (.done .aborted) →
        w.isFired .workers = true ∨ w.pipeline.queue.isOpen = false) :
      (t.goto worker).Steady i w' :=
    ⟨h.name, h.stop, h.loops, fun job hw => absurd hw (idle job), fun gone =>
      (dismissed gone).imp (lasts.fired _) lasts.closed⟩
  have conclude (job : Job) (ending : Ending) : (t.conclude job ending).Steady i w' := by
    cases ending <;> exact goto (by simp [Handling.finish]) (by simp [Handling.finish])
  cases goes with
  | quit _ told => exact goto (by simp) fun _ => .inl (h.stop ▸ told)
  | desert _ told => exact goto (by simp) fun _ => .inl (h.stop ▸ told)
  | @look receipt _ _ received =>
    cases receipt with
    | ended =>
      refine goto (by simp [Worker.answered]) fun _ => .inr ?_
      rcases w.pipeline.queue.receive_cases t.receiver with ⟨_, hr, -⟩ | ⟨hr, -⟩ | ⟨-, -, closed, -⟩
      · rw [received] at hr; cases hr
      · rw [received] at hr; cases hr
      · exact closed
    | _ => exact goto (by simp [Worker.answered]) (by simp [Worker.answered])
  | handle _ step idle =>
    obtain ⟨-, -, gives⟩ := (Handling.proceeds_of_step step).keeps
    refine goto (fun job hw => idle job (by cases hw; rfl)) ?_
    rintro (home | aborted)
    · cases home
    · cases aborted
      exact .inl (h.stop ▸ gives rfl)
  | begin => exact ⟨h.name, h.stop, h.loops, fun _ _ => rfl, by rintro (h | h) <;> cases h⟩
  | rush => exact conclude _ _
  | conclude => exact conclude _ _
  | leave aborted => exact goto (by simp) fun _ => h.dismissed (.inr aborted)
  | next => exact goto (by simp) (by simp)

/-- Nobody dies but of a workload of its own. -/
theorem doomed (goes : t.Goes exec w t' w') (doomed : t'.Doomed) : t.Doomed ∨
    ∃ job, t.worker = .handling (.ready job) ∧ (exec job).ending = .panic := by
  cases goes with
  | @look receipt =>
    exact absurd doomed (t.not_doomed_goto (by cases receipt <;> simp [Worker.answered]))
  | begin ready =>
    obtain hw | ⟨time, due⟩ := doomed
    · cases hw
    · exact .inr ⟨_, ready, congrArg Prod.snd (Option.some.inj due)⟩
  | @rush job _ ready =>
    cases hending : (exec job).ending with
    | panic => exact .inr ⟨_, ready, hending⟩
    | result result => rw [hending] at doomed; exact absurd doomed (t.not_doomed_goto (by simp))
  | @conclude _ _ ending _ due =>
    cases ending with
    | panic => exact .inl (.inr ⟨_, due⟩)
    | result result => exact absurd doomed (t.not_doomed_goto (by simp))
  | _ => exact absurd doomed (t.not_doomed_goto (by simp))

end Goes

/-! ## Nobody is stuck but at the queue -/

/-- A worker that has not ended moves in time, unless it waits at the queue. -/
theorem Steady.can_go {i : Nat} (h : t.Steady i w) (alive : t.ended = false)
    (away : t.worker ≠ .waiting) :
    ∃ time, ∀ (exec : Executor) (w : World), time ≤ w.clock → (t.step exec w).isSome = true := by
  have working : ∃ time, ∀ job, t.worker = .handling (.working job) →
      ∃ ending, t.due = some (time, ending) := by
    cases hdue : t.due with
    | none => exact ⟨0, fun job hw => by have := h.timed job hw; rw [hdue] at this; cases this⟩
    | some due => exact ⟨due.1, fun _ _ => ⟨due.2, rfl⟩⟩
  obtain ⟨time, working⟩ := working
  refine ⟨time, fun exec w late => ?_⟩
  have gone : ¬ (t.worker = .stopped ∨ t.worker = .died) := by rw [← h.ended_iff, alive]; simp
  cases hw : t.worker with
  | looking => simp only [step, hw]; split <;> rfl
  | waiting => exact absurd hw away
  | handling handling =>
    cases handling with
    | ready job => simp only [step, hw]; split <;> rfl
    | working job =>
      obtain ⟨ending, due⟩ := working job hw
      simp only [step, hw, due, if_pos late]
      split <;> rfl
    | done outcome => simp [step, hw, h.loops]
    | _ =>
      simp only [step, hw, Option.isSome_map]
      exact Handling.isSome_step (by simp) (.inr (by simp)) _
  | stopped => exact absurd (.inl hw) gone
  | died => exact absurd (.inr hw) gone

/-- The first in the line moves if there is an id, whether it is told to stop or not. -/
theorem isSome_step_of_canServe (waiting : t.worker = .waiting)
    (served : w.pipeline.queue.canServe t.receiver = true) : (t.step exec w).isSome = true := by
  simp only [step, waiting, served, if_true]
  split <;> rfl

end Task
end JobPipeline
