import JobPipeline.Proofs.Queue.Discipline
import JobPipeline.Proofs.Scene.Custody
import JobPipeline.Proofs.Scene.Tasks
import JobPipeline.Proofs.Service.Stage

/-!
# What a worker does while nothing stops it

`Worker.Tends` lists the moves of a worker whose stop signal has not fired and whose workloads come
to a result: it takes an id, waits for one, goes home when the queue has ended, or goes on with the
id in its hands. `Task.step_tends` finds the move behind every step of its task. `Pipeline.Stirs`
lists what everybody else does to the shared parts.
-/

namespace JobPipeline

namespace Job

theorem status_reported_ne_processing (r : WorkResult) (job : Job) :
    (job.reported r).status ≠ .processing := by
  cases r with
  | success => exact nofun
  | failure reason => cases hv : job.verdict <;> simp [reported, hv, Verdict.status]

/-- A sweep makes no job processing. -/
theorem swept_of_processing {job : Job} (processing : job.swept.status = .processing) :
    job.swept = job := by
  by_cases h : job.lapsed = true
  · simp [swept, h] at processing
  · exact swept_of_not_lapsed (by simpa using h)

end Job

namespace Worker

/-- Whether the worker is asking for an id. -/
def Free (w : Worker) : Prop := w = .looking ∨ w = .waiting

/-- The record the worker has claimed and not reported. -/
abbrev holding (w : Worker) : Option Job := (Actor.worker w).holding

/-- A move of a worker that nothing stops. -/
inductive Tends (ok : WorkResult → Prop) (p : Pipeline) : Worker → Worker → Pipeline → Prop
  | take {w : Worker} {id : JobId} {q : Queue} (free : w.Free)
      (first : p.queue.buffer = id :: q.buffer) (isOpen : q.isOpen = p.queue.isOpen) :
      Tends ok p w (.handling (.claiming id)) { p with queue := q }
  | wait {w : Worker} {q : Queue} (free : w.Free) (alike : p.queue.Alike q) :
      Tends ok p w .waiting { p with queue := q }
  /-- The queue has ended. -/
  | retire {w : Worker} {q : Queue} (free : w.Free) (empty : p.queue.buffer = [])
      (closed : p.queue.isOpen = false) (alike : p.queue.Alike q) :
      Tends ok p w .stopped { p with queue := q }
  | handle {h h' : Handling} {p' : Pipeline} (proceeds : h.Proceeds false p h' p')
      (honest : ∀ job r, h = .reporting job r → ok r) : Tends ok p (.handling h) (.handling h') p'
  /-- The workload ends, perhaps in the move that starts it. -/
  | conclude {h : Handling} {job : Job} {r : WorkResult}
      (at_work : h = .ready job ∨ h = .working job)
      (right : ok r) : Tends ok p (.handling h) (.handling (.reporting job r)) p
  | next {outcome : Outcome} (kept : outcome ≠ .aborted) :
      Tends ok p (.handling (.done outcome)) .looking p

/-- The worker has claimed the job with the given id and not reported it. -/
def Holds (w : Worker) (id : JobId) : Prop := ∃ job, w.holding = some job ∧ job.id = id

theorem Free.not_holds {w : Worker} (free : w.Free) (id : JobId) : ¬ w.Holds id := by
  rcases free with rfl | rfl <;> exact nofun

theorem holds_iff_of_holding {w : Worker} {job : Job} (h : w.holding = some job) {id : JobId} :
    w.Holds id ↔ job.id = id := by
  simp [Holds, h]

/-- A worker that goes on with its record holds it, or held nothing of interest. -/
theorem holds_or_not_holds {w w' : Worker} {job : Job} (h : w.holding = some job)
    (h' : w'.holding = some job) (id : JobId) : w'.Holds id ∨ ¬ w.Holds id := by
  rw [holds_iff_of_holding h, holds_iff_of_holding h']
  exact Decidable.em _

/-- What a move writes into the store. -/
inductive Writes (ok : WorkResult → Prop) (s : Store) : Worker → Worker → Store → Prop
  | claim {old : Job} (found : s.get? old.id = some old) (pending : old.status = .pending) :
      Writes ok s (.handling (.claiming old.id)) (.handling (.claimed old.started))
        (s.set old.id old.started)
  | report {job old : Job} {r : WorkResult} {w' : Worker} (same : job.id = old.id)
      (found : s.get? old.id = some old) (processing : old.status = .processing) (right : ok r) :
      Writes ok s (.handling (.reporting job r)) w' (s.set old.id (old.reported r))
  | nothing (w w' : Worker) : Writes ok s w w' s

namespace Tends

variable {ok : WorkResult → Prop} {p p' : Pipeline} {w w' : Worker}

theorem writes (tends : w.Tends ok p w' p') : w.Writes ok p.store w' p'.store := by
  cases tends with
  | handle proceeds honest =>
    cases proceeds with
    | claim found pending => exact .claim found pending
    | @report job old same found processing r =>
      exact .report same found processing (honest job r rfl)
    | _ => exact .nothing _ _
  | _ => exact .nothing _ _

/-- A worker that nothing stops gives no job up, and goes home only when the queue has ended. -/
theorem upright (tends : w.Tends ok p w' p') :
    w' ≠ .died ∧ w' ≠ .handling (.done .aborted) ∧
      (∀ job r, w' = .handling (.reporting job r) → ok r) ∧
      (w' = .stopped → p'.queue.buffer = [] ∧ p'.queue.isOpen = false) := by
  cases tends with
  | retire _ empty closed alike =>
    exact ⟨nofun, nofun, nofun, fun _ => ⟨alike.1.trans empty, alike.2.trans closed⟩⟩
  | handle proceeds honest =>
    refine ⟨nofun, ?_, ?_, nofun⟩
    · intro h
      cases proceeds with
      | report _ _ _ r => cases r <;> cases h
      | forgo _ stops => cases stops
      | interrupt _ stops => cases stops
      | _ => cases h
    · intro job r h
      cases h
      exact absurd rfl (proceeds.ne_reporting job r)
  | conclude _ right =>
    refine ⟨nofun, nofun, ?_, nofun⟩
    intro job r h
    cases h
    exact right
  | _ => exact ⟨nofun, nofun, nofun, nofun⟩

/-- A job that is processing after a move is in the hands of the worker, or it was processing and in
other hands before. -/
theorem released (tends : w.Tends ok p w' p') {id : JobId} {job' : Job}
    (hget' : p'.store.get? id = some job') (processing' : job'.status = .processing) :
    w'.Holds id ∨ (¬ w.Holds id ∧ p.store.get? id = some job') := by
  -- Whoever goes on with a record in hand leaves the store alone.
  have keeps {job : Job} (h : w.holding = some job) (h' : w'.holding = some job)
      (hget : p.store.get? id = some job') :
      w'.Holds id ∨ (¬ w.Holds id ∧ p.store.get? id = some job') :=
    (holds_or_not_holds h h' id).imp_right fun free => ⟨free, hget⟩
  cases tends with
  | take free => exact .inr ⟨free.not_holds id, hget'⟩
  | wait free => exact .inr ⟨free.not_holds id, hget'⟩
  | retire free => exact .inr ⟨free.not_holds id, hget'⟩
  | next => exact .inr ⟨nofun, hget'⟩
  | conclude at_work => rcases at_work with rfl | rfl <;> exact keeps rfl rfl hget'
  | handle proceeds =>
    cases proceeds with
    | @claim old found pending =>
      by_cases hid : id = old.id
      · exact .inl ⟨old.started, rfl, hid.symm⟩
      · refine .inr ⟨nofun, ?_⟩
        rwa [Store.get?_set_of_ne (Job.id_started old) hid] at hget'
    | count job => exact keeps rfl rfl hget'
    | start job => exact keeps rfl rfl hget'
    | @report job old same found _ r =>
      by_cases hid : id = old.id
      · subst hid
        rw [Store.get?_set_self (Job.id_reported r old) found] at hget'
        cases hget'
        exact absurd processing' (Job.status_reported_ne_processing r old)
      · refine .inr ⟨?_, by rwa [Store.get?_set_of_ne (Job.id_reported r old) hid] at hget'⟩
        rw [holds_iff_of_holding (show _ = some job from rfl), same]
        exact Ne.symm hid
    | @reject job r refused =>
      refine .inr ⟨?_, hget'⟩
      rintro ⟨_, h, rfl⟩
      cases h
      exact refused job' hget' processing'
    | forgo _ stops => cases stops
    | interrupt _ stops => cases stops
    | _ => exact .inr ⟨nofun, hget'⟩

/-- A closed queue stays closed, and its ids leave it one by one, each for one worker. -/
theorem queue (tends : w.Tends ok p w' p') (closed : p.queue.isOpen = false) :
    p'.queue.isOpen = false ∧
      ((∃ id, w' = .handling (.claiming id) ∧ p.queue.buffer = id :: p'.queue.buffer) ∨
        ((∀ id, w' ≠ .handling (.claiming id)) ∧ p'.queue.buffer = p.queue.buffer)) := by
  cases tends with
  | take _ first isOpen => exact ⟨isOpen.trans closed, .inl ⟨_, rfl, first⟩⟩
  | wait _ alike => exact ⟨alike.2.trans closed, .inr ⟨nofun, alike.1⟩⟩
  | retire _ _ _ alike => exact ⟨alike.2.trans closed, .inr ⟨nofun, alike.1⟩⟩
  | handle proceeds =>
    cases proceeds with
    | requeue job =>
      rw [Queue.offer_of_closed closed]
      exact ⟨closed, .inr ⟨nofun, rfl⟩⟩
    | report _ _ _ r => cases r <;> exact ⟨closed, .inr ⟨nofun, rfl⟩⟩
    | _ => exact ⟨closed, .inr ⟨nofun, rfl⟩⟩
  | conclude => exact ⟨closed, .inr ⟨nofun, rfl⟩⟩
  | next => exact ⟨closed, .inr ⟨nofun, rfl⟩⟩

end Tends
end Worker

namespace Task

variable {ok : WorkResult → Prop} {exec : Executor} {t t' : Task} {w w' : World}

/-- A worker of a service that is at its loop.

  * `stop`, `loops` — it listens to the workers' token and handles id after id.
  * `alive`         — no workload has taken it down.
  * `unhurt`        — it has not given up a job.
  * `due`, `report` — what its workload comes to, or has come to, is one of the given results. -/
structure Sound (ok : WorkResult → Prop) (t : Task) : Prop where
  stop : t.stop = .workers
  loops : t.once = false
  alive : t.worker ≠ .died
  unhurt : t.worker ≠ .handling (.done .aborted)
  due : ∀ time ending, t.due = some (time, ending) → ∃ r, ok r ∧ ending = .result r
  report : ∀ job r, t.worker = .handling (.reporting job r) → ok r

/-- The fields a step of a task leaves alone, and what it makes of the time its workload is due. -/
structure Kept (ok : WorkResult → Prop) (t t' : Task) (w w' : World) : Prop where
  stop : t'.stop = t.stop
  once : t'.once = t.once
  fired : w'.fired = w.fired
  due : ∀ time ending, t'.due = some (time, ending) → ∃ r, ok r ∧ ending = .result r

theorem Kept.of_goto {worker : Worker} (fired : w'.fired = w.fired) :
    Kept ok t (t.goto worker) w w' :=
  ⟨rfl, rfl, fired, nofun⟩

/-- Asking the queue. -/
theorem look_tends (free : t.worker.Free) :
    t.worker.Tends ok w.pipeline (t.look w).1.worker (t.look w).2.pipeline ∧
      Kept ok t (t.look w).1 w (t.look w).2 := by
  unfold look
  rcases w.pipeline.queue.receive_cases t.receiver with ⟨id, hr, hb, ho⟩ | ⟨hr, ha⟩ |
    ⟨hr, hb, ho, ha⟩
  · simp only [hr]; exact ⟨.take free hb ho, .of_goto rfl⟩
  · simp only [hr]; exact ⟨.wait free ha, .of_goto rfl⟩
  · simp only [hr]; exact ⟨.retire free hb ho ha, .of_goto rfl⟩

/-- **What a task does while nothing stops it.** -/
theorem step_tends (yields : exec.Yields ok) (sound : t.Sound ok)
    (running : w.isFired t.stop = false) (hs : t.step exec w = some (t', w')) :
    t.worker.Tends ok w.pipeline t'.worker w'.pipeline ∧ Kept ok t t' w w' := by
  have untold (told : w.isFired t.stop = true) : False := by simp [running] at told
  cases moves_of_step hs with
  | quit _ told => exact (untold told).elim
  | desert _ told => exact (untold told).elim
  | look looking => exact look_tends (.inl looking)
  | serve waiting => exact look_tends (.inr waiting)
  | @handle h h' _ busy step =>
    rw [running] at step
    have proceeds := Handling.proceeds_of_step step
    refine ⟨?_, .of_goto rfl⟩
    rw [busy]
    exact .handle proceeds fun job r reporting =>
      sound.report job r (busy.trans (by rw [reporting]))
  | @begin job ready =>
    obtain ⟨plain, r, right, hending⟩ := yields job
    obtain ⟨notes, begun⟩ := Executor.begun_eq plain w
    rw [begun, ready]
    refine ⟨.handle (.start job rfl) nofun, rfl, rfl, rfl, fun time ending due => ?_⟩
    rw [hending] at due
    cases due
    exact ⟨r, right, rfl⟩
  | @rush job ready =>
    obtain ⟨plain, r, right, hending⟩ := yields job
    obtain ⟨notes, begun⟩ := Executor.begun_eq plain w
    rw [begun, ready, hending]
    exact ⟨.conclude (.inl rfl) right, .of_goto rfl⟩
  | @conclude job time ending working _ due =>
    obtain ⟨r, right, rfl⟩ := sound.due time ending due
    rw [working]
    exact ⟨.conclude (.inr rfl) right, .of_goto rfl⟩
  | leave aborted => exact absurd aborted sound.unhurt
  | next kept done => rw [done]; exact ⟨.next kept, .of_goto rfl⟩

theorem Sound.of_tends (sound : t.Sound ok)
    (tends : t.worker.Tends ok w.pipeline t'.worker w'.pipeline) (kept : Kept ok t t' w w') :
    t'.Sound ok := by
  obtain ⟨alive, unhurt, report, -⟩ := tends.upright
  exact ⟨kept.stop.trans sound.stop, kept.once.trans sound.loops, alive, unhurt, kept.due, report⟩

/-- Of the sound workers only those that have gone home have ended. -/
theorem Sound.ended_iff (sound : t.Sound ok) : t.ended = true ↔ t.worker = .stopped := by
  have alive := sound.alive
  simp only [ended, sound.loops, Bool.false_and, Bool.or_false]
  cases hw : t.worker <;> simp_all [Worker.ended]

end Task

namespace Pipeline

/-- What the others do to the shared parts: sweeps, creations, offers, and the closing of the queue.
Once creations are refused no record is added. -/
inductive Stirs (refused : Bool) (p : Pipeline) : Pipeline → Prop
  | rest : p.Stirs refused p
  | tell (e : Ledger.Event) : p.Stirs refused (p.record e)
  | sweep : p.Stirs refused { p with store := p.store.swept }
  | offer (id : JobId) : p.Stirs refused (p.offer id).2
  | close : p.Stirs refused { p with queue := p.queue.close }
  | create {job : Job} {store : Store} (accepted : refused = false)
      (pending : job.status = .pending) (wrote : p.store.create job false = .ok store) :
      p.Stirs refused { p with store }

namespace Stirs

variable {refused : Bool} {p p' : Pipeline}

theorem of_sweep {stopped : Bool} {s s' : Sweep} (proceeds : s.Proceeds stopped p s' p') :
    p.Stirs refused p' := by
  cases proceeds with
  | recover => exact .sweep
  | credit => exact .tell .retried
  | offer id => exact .offer id
  | _ => exact .rest

theorem of_creation {c c' : Creation} (pending : ∀ job, c = .storing job → job.status = .pending)
    (proceeds : c.Proceeds refused p c' p') : p.Stirs refused p' := by
  cases proceeds with
  | @store job store accepted wrote => exact .create accepted (pending job rfl) wrote
  | refuse => exact .rest
  | count => exact .tell .created
  | offer job => exact .offer job.id

/-- A job that is processing after a stir was so before. -/
theorem released (stirs : p.Stirs refused p') {id : JobId} {job' : Job}
    (hget' : p'.store.get? id = some job') (processing' : job'.status = .processing) :
    p.store.get? id = some job' := by
  cases stirs with
  | sweep =>
    rw [Store.get?_swept, Option.map_eq_some_iff] at hget'
    obtain ⟨job, hget, rfl⟩ := hget'
    rw [hget, Job.swept_of_processing processing']
  | create _ pending wrote =>
    rw [Store.get?_create wrote] at hget'
    split at hget'
    · cases hget'
      exact absurd (pending.symm.trans processing') (by decide)
    · exact hget'
  | _ => exact hget'

/-- Nobody opens a closed queue or fills it. -/
theorem queue (stirs : p.Stirs refused p') (closed : p.queue.isOpen = false) :
    p.queue.Alike p'.queue := by
  cases stirs with
  | offer id =>
    show p.queue.Alike (p.queue.offer id).2
    rw [Queue.offer_of_closed closed]
    exact ⟨rfl, rfl⟩
  | close => exact ⟨rfl, closed.symm⟩
  | _ => exact ⟨rfl, rfl⟩

/-- Once creations are refused only sweeps touch the store. -/
theorem store (stirs : p.Stirs true p') : p'.store = p.store ∨ p'.store = p.store.swept := by
  cases stirs with
  | sweep => exact .inr rfl
  | create accepted => cases accepted
  | _ => exact .inl rfl

end Stirs
end Pipeline
end JobPipeline
