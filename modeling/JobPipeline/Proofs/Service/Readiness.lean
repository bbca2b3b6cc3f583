import JobPipeline.Api.Endpoint
import JobPipeline.Proofs.Service.Building
import JobPipeline.Proofs.Service.Overlap
import JobPipeline.Proofs.Service.Tenure
import JobPipeline.Proofs.Worker.Steadiness

/-!
# Readiness and the workers

A service says that it is ready if it has tasks that no shutdown has taken and creates jobs. It does
not look at the tasks. A workload that panics takes its worker down, and nobody replaces that, so
the service may be ready with no worker left (`ready_without_workers`).

What readiness does mean is `ready_service_is_staffed`: every worker of the pool is at work, or has
died of a workload that it began itself (`Stage.Panicked`), unless a workload has meddled with the
shared parts. And of the workers that are at work some one goes on while there is an id to take.
-/

namespace JobPipeline

/-! ## What others do to the workers' world -/

theorem SweeperTask.meddles_of_step {t t' : SweeperTask} {w w' : World}
    (hs : t.step w = some (t', w')) : w.Meddles w' ∧ w.Spares w' := by
  have spares (h : w.Spares w') (line : w'.pipeline.queue.suspended = w.pipeline.queue.suspended) :
      w.Meddles w' ∧ w.Spares w' := ⟨h.meddles line, h⟩
  cases moves_of_step hs with
  | sweep _ proceeds =>
    obtain ⟨line, isOpen⟩ := proceeds.queue
    exact spares ⟨isOpen, rfl⟩ line
  | _ => exact spares ⟨rfl, rfl⟩ rfl

theorem Creation.Proceeds.queue {refused : Bool} {c c' : Creation} {p p' : Pipeline}
    (proceeds : c.Proceeds refused p c' p') :
    p'.queue.suspended = p.queue.suspended ∧ p'.queue.isOpen = p.queue.isOpen := by
  cases proceeds with
  | offer job => exact p.queue_offer job.id
  | _ => exact ⟨rfl, rfl⟩

/-- A shutdown leaves the line at the queue, the configuration and the workers. -/
theorem Shutdown.Advances.meddles {call call' : Shutdown} {s s' : Service}
    (h : call.Advances s call' s') : s.world.Meddles s'.world ∧ s'.config = s.config := by
  cases h with
  | refuse => exact ⟨s.world.meddles_fire _, rfl⟩
  | pass => exact ⟨s.world.meddles_fire _, rfl⟩
  | halt => exact ⟨s.world.meddles_fire _, rfl⟩
  | expire => exact ⟨s.world.meddles_fire _, rfl⟩
  | mark => exact ⟨s.world.meddles_fire _, rfl⟩
  | shut => exact ⟨⟨⟨fun _ => rfl, fun _ => id⟩, rfl⟩, rfl⟩
  | close => exact ⟨⟨⟨fun _ => rfl, fun _ => id⟩, rfl⟩, rfl⟩
  | _ => exact ⟨.refl, rfl⟩

/-! ## What happens to a pool of workers -/

namespace Stage

/-- Everything is allowed. -/
def anyhow (_ : Stage) (_ : Event) : Bool := true

theorem live_concat {events : List Event} {event : Event} {s e : Stage} {log log' : List Notice} :
    live anyhow (events ++ [event]) log s = some (log', e) ↔
      ∃ past t, live anyhow events log s = some (past, t) ∧ t.advance event = some e ∧
        log' = past ++ t.notices event := by
  induction events generalizing s log with
  | nil =>
    simp only [List.nil_append, live, anyhow, if_true, Option.bind_eq_some_iff, Option.some.injEq,
      Prod.mk.injEq]
    constructor
    · rintro ⟨t, step, rfl, rfl⟩; exact ⟨log, s, ⟨rfl, rfl⟩, step, rfl⟩
    · rintro ⟨_, _, ⟨rfl, rfl⟩, step, rfl⟩; exact ⟨e, step, rfl, rfl⟩
  | cons first rest ih =>
    simp only [List.cons_append, live, anyhow, if_true, Option.bind_eq_some_iff, ih]
    constructor
    · rintro ⟨u, hu, past, t, more⟩; exact ⟨past, t, ⟨u, hu, more.1⟩, more.2⟩
    · rintro ⟨past, t, ⟨u, hu, run⟩, more⟩; exact ⟨u, hu, past, t, run, more⟩

/-- The worker at a position has begun a workload that panics. -/
def Panicked (origin : Stage) (events : List Event) (i : Nat) : Prop :=
  ∃ before exec job log s t, before ++ [.turn (.work i exec)] <+: events ∧
    live anyhow before [] origin = some (log, s) ∧ s.tasks[i]? = some t ∧
    t.worker = .handling (.ready job) ∧ (exec job).ending = .panic

/-- A workload has performed commands on the shared parts. -/
def Meddled (events : List Event) : Prop := ∃ event ∈ events, ¬ event.Plain

theorem Panicked.concat {origin : Stage} {events : List Event} {i : Nat}
    (h : origin.Panicked events i) (event : Event) : origin.Panicked (events ++ [event]) i := by
  obtain ⟨before, exec, job, log, s, t, earlier, h⟩ := h
  exact ⟨before, exec, job, log, s, t, earlier.trans (List.prefix_append _ _), h⟩

theorem Meddled.concat {events : List Event} (h : Meddled events) (event : Event) :
    Meddled (events ++ [event]) := by
  obtain ⟨e, he, h⟩ := h
  exact ⟨e, List.mem_append_left _ he, h⟩

/-- What is known of the workers of a service.

  * `pool`      — the service has the handles of as many workers as configured.
  * `steady`    — every worker keeps to its ways.
  * `nodup`     — nobody is in the line at the queue twice.
  * `seated`    — the line is that of the workers that wait.
  * `refusing`  — a shutdown that has moved has stopped creations.
  * `untouched` — before that only workloads close the queue or tell the workers to stop.
  * `bereaved`  — a worker dies of a workload of its own. -/
structure Watched (origin : Stage) (events : List Event) (s : Stage) : Prop where
  pool : s.service.config = origin.service.config ∧ ∀ handles, s.service.handles = some handles →
    handles.workers.length = s.service.config.worker.concurrency.toNat ∧
      ∀ i ∈ handles.workers, i < s.tasks.length
  steady : ∀ i (t : Task), s.tasks[i]? = some t → t.Steady i s.world
  nodup : s.queue.suspended.Nodup
  seated : ∀ i, i ∈ s.queue.suspended ↔ ∃ t, s.tasks[i]? = some t ∧ t.worker = .waiting
  refusing : ∀ call ∈ s.calls, call ≠ .begun → s.world.isFired .accepting = true
  untouched : s.world.isFired .workers = true ∨ s.queue.isOpen = false →
    s.world.isFired .accepting = true ∨ Meddled events
  bereaved : ∀ i (t : Task), s.tasks[i]? = some t → t.Doomed → origin.Panicked events i

theorem config_of_step {s s' : Stage} {turn : Turn} (hs : s.step turn = some s') :
    s'.service.config = s.service.config := by
  cases turn with
  | call => cases hs; rfl
  | proceed k =>
    obtain ⟨_, _, _, -, hstep, rfl⟩ := step_proceed_iff.1 hs
    exact (Shutdown.advances_of_step hstep).meddles.2
  | request _ now r => cases hs; rfl
  | wait ms => cases hs; rfl
  | work i exec =>
    simp only [step, Option.bind_eq_bind, Option.bind_eq_some_iff, Option.pure_def,
      Option.some.injEq] at hs
    obtain ⟨_, -, rfl⟩ := hs
    rfl
  | sweep i =>
    simp only [step, Option.bind_eq_bind, Option.bind_eq_some_iff, Option.pure_def,
      Option.some.injEq] at hs
    obtain ⟨_, -, rfl⟩ := hs
    rfl
  | create k =>
    simp only [step, Option.bind_eq_bind, Option.bind_eq_some_iff, Option.pure_def,
      Option.some.injEq] at hs
    obtain ⟨_, -, _, -, rfl⟩ := hs
    rfl

theorem exists_step_work {s : Stage} {i : Nat} {exec : Executor} {t : Task}
    (ht : s.tasks[i]? = some t) (able : (t.step exec s.world).isSome = true) :
    ∃ s', s.step (.work i exec) = some s' := by
  obtain ⟨⟨t', w⟩, hstep⟩ := Option.isSome_iff_exists.1 able
  rw [← Option.isSome_iff_exists]
  simp [step, Timeline.moveWorker, ht, hstep]

namespace Watched

variable {origin s s' : Stage} {events : List Event} {event : Event}

theorem of_fresh (config : JobsConfig) (exec : Executor) :
    (fresh (.ofConfig config exec)).Watched [] (fresh (.ofConfig config exec)) where
  pool := ⟨rfl, nofun⟩
  steady _ _ h := by cases h
  nodup := List.nodup_nil
  seated i := by
    refine ⟨fun seat => absurd seat List.not_mem_nil, ?_⟩
    rintro ⟨t, ht, -⟩
    cases ht
  refusing := nofun
  untouched h := by rcases h with h | h <;> cases h
  bereaved _ _ h := by cases h

/-- Somebody who is no worker does something. -/
theorem others (h : origin.Watched events s) (tasks : s'.tasks = s.tasks)
    (config : s'.service.config = s.service.config)
    (handles : ∀ handles, s'.service.handles = some handles → s.service.handles = some handles)
    (meddles : s.world.Meddles s'.world)
    (refusing : ∀ call ∈ s'.calls, call ≠ .begun → s'.world.isFired .accepting = true)
    (blame : s.world.Spares s'.world ∨ s'.world.isFired .accepting = true) :
    origin.Watched (events ++ [event]) s' where
  pool := by rw [config, tasks]; exact ⟨h.pool.1, fun _ has => h.pool.2 _ (handles _ has)⟩
  steady := by rw [tasks]; exact fun i t ht => (h.steady i t ht).lasts meddles.toLasts
  nodup := by rw [show s'.queue.suspended = _ from meddles.line]; exact h.nodup
  seated := by rw [show s'.queue.suspended = _ from meddles.line, tasks]; exact h.seated
  refusing := refusing
  untouched touched := by
    rcases blame with ⟨isOpen, fired⟩ | refused
    · rw [World.isFired, fired, show s'.queue.isOpen = _ from isOpen] at touched
      exact (h.untouched touched).imp (meddles.fired _) (·.concat event)
    · exact .inl refused
  bereaved := by rw [tasks]; exact fun i t ht doomed => (h.bereaved i t ht doomed).concat event

/-- A worker moves. -/
theorem work (h : origin.Watched events s) {log : List Notice}
    (run : live anyhow events [] origin = some (log, s)) {i : Nat} {exec : Executor}
    (hs : s.step (.work i exec) = some s') :
    origin.Watched (events ++ [.turn (.work i exec)]) s' := by
  have config := config_of_step hs
  obtain ⟨t, t', w, ht, hstep, rfl, tasks, handles, calls, -⟩ := step_work hs
  have goes := Task.goes_of_step hstep
  have steady := h.steady i t ht
  obtain rfl : i = t.receiver := steady.name.symm
  have hlt := (List.getElem?_eq_some_iff.1 ht).1
  have lasts := goes.lasts
  have mine : t.receiver ∈ s.queue.suspended ↔ t.worker = .waiting := by
    rw [h.seated, ht]
    simp
  obtain ⟨nodup, seat, others⟩ := goes.seats h.nodup mine
  refine ⟨?_, ?_, nodup, ?_, ?_, ?_, ?_⟩
  · -- pool
    rw [config, handles, tasks, List.length_set]
    exact h.pool
  · -- steady
    rw [tasks]
    intro j u hu
    rcases getElem?_set_cases hu with ⟨rfl, rfl⟩ | ⟨-, hu⟩
    · exact goes.steady steady
    · exact (h.steady j u hu).lasts lasts
  · -- seated
    intro j
    rw [tasks]
    by_cases hj : j = t.receiver
    · subst hj
      rw [show _ ∈ s'.queue.suspended ↔ _ from seat, List.getElem?_set_self hlt]
      simp
    · rw [show j ∈ s'.queue.suspended ↔ _ from others j hj, h.seated,
        List.getElem?_set_ne (Ne.symm hj)]
  · -- refusing
    rw [calls]
    exact fun call hcall past => lasts.fired _ (h.refusing call hcall past)
  · -- untouched
    intro touched
    by_cases plain : exec.Plain
    · obtain ⟨isOpen, fired⟩ := goes.spares plain
      rw [World.isFired, fired, show s'.queue.isOpen = _ from isOpen] at touched
      exact (h.untouched touched).imp (lasts.fired _) (·.concat _)
    · exact .inr ⟨_, List.mem_append_right _ List.mem_cons_self, plain⟩
  · -- bereaved
    rw [tasks]
    intro j u hu doomed
    rcases getElem?_set_cases hu with ⟨rfl, rfl⟩ | ⟨-, hu⟩
    · rcases goes.doomed doomed with doomed | ⟨job, ready, panics⟩
      · exact (h.bereaved _ t ht doomed).concat _
      · exact ⟨events, exec, job, log, s, t, List.prefix_rfl, run, ht, ready, panics⟩
    · exact (h.bereaved j u hu doomed).concat _

/-- A start adds workers that go by their positions. -/
theorem start (h : origin.Watched events s) {service : Service}
    (hs : s.service.start = .ok service) :
    origin.Watched (events ++ [.start]) { s with service } := by
  obtain ⟨config, hworld, handles, hhandles, positions, workers⟩ := Service.start_eq hs
  have kept (i : Nat) (t : Task) (ht : s.tasks[i]? = some t) :
      service.timeline.workers[i]? = some t := by
    rw [workers, List.getElem?_append_left (List.getElem?_eq_some_iff.1 ht).1]
    exact ht
  have added (i : Nat) (t : Task) (ht : service.timeline.workers[i]? = some t) :
      s.tasks[i]? = some t ∨ t = .spawn i .workers := by
    rw [workers, positions] at ht
    rcases Nat.lt_or_ge i s.service.timeline.workers.length with hi | hi
    · rw [List.getElem?_append_left hi] at ht
      exact .inl ht
    · rw [List.getElem?_append_right hi] at ht
      obtain ⟨_, rfl⟩ := List.getElem?_eq_some_iff.1 ht
      right
      simp only [List.getElem_map, List.getElem_range, Nat.add_sub_cancel' hi]
  refine ⟨⟨config.trans h.pool.1, fun given has => ?_⟩, fun i t ht => ?_, ?_, fun i => ?_, ?_, ?_,
    fun i t ht doomed => ?_⟩
  · -- pool
    obtain rfl : handles = given := Option.some.inj (hhandles.symm.trans has)
    refine ⟨?_, fun i hi => ?_⟩
    · rw [positions, config, List.length_map, List.length_range]
    · rw [positions, List.mem_map] at hi
      obtain ⟨k, hk, rfl⟩ := hi
      rw [show Stage.tasks _ = _ from workers, positions]
      have := List.mem_range.1 hk
      simp only [List.length_append, List.length_map, List.length_range]
      omega
  · -- steady
    rw [show Stage.world _ = _ from hworld]
    rcases added i t ht with ht | rfl
    · exact h.steady i t ht
    · exact Task.steady_spawn i _
  · -- nodup
    rw [show Stage.queue _ = s.queue from congrArg (·.pipeline.queue) hworld]
    exact h.nodup
  · -- seated
    rw [show Stage.queue _ = s.queue from congrArg (·.pipeline.queue) hworld, h.seated]
    constructor
    · rintro ⟨t, ht, waiting⟩; exact ⟨t, kept i t ht, waiting⟩
    · rintro ⟨t, ht, waiting⟩
      rcases added i t ht with ht | rfl
      · exact ⟨t, ht, waiting⟩
      · cases waiting
  · -- refusing
    rw [show Stage.world _ = _ from hworld]
    exact h.refusing
  · -- untouched
    rw [show Stage.queue _ = s.queue from congrArg (·.pipeline.queue) hworld,
      show Stage.world _ = _ from hworld]
    exact fun touched => (h.untouched touched).imp_right (·.concat _)
  · -- bereaved
    rcases added i t ht with ht | rfl
    · exact (h.bereaved i t ht doomed).concat _
    · exact absurd doomed (Task.not_doomed_spawn i _)

theorem advance (h : origin.Watched events s) {log : List Notice}
    (run : live anyhow events [] origin = some (log, s)) (hs : s.advance event = some s') :
    origin.Watched (events ++ [event]) s' := by
  have same : origin.Watched (events ++ [event]) s :=
    h.others rfl rfl (fun _ => id) .refl h.refusing (.inl ⟨rfl, rfl⟩)
  cases event with
  | look => cases hs; exact same
  | start =>
    simp only [Stage.advance] at hs
    split at hs
    · rename_i hstart; cases hs; exact h.start hstart
    · cases hs; exact same
  | turn turn =>
    have config := config_of_step hs
    cases turn with
    | call =>
      cases hs
      refine h.others rfl rfl (fun _ => id) .refl ?_ (.inl ⟨rfl, rfl⟩)
      intro call hcall past
      rcases List.mem_append.1 hcall with hcall | hcall
      · exact h.refusing call hcall past
      · exact absurd (List.mem_singleton.1 hcall) past
    | proceed k =>
      obtain ⟨call, call', service, hk, hstep, rfl⟩ := step_proceed_iff.1 hs
      have advances := Shutdown.advances_of_step hstep
      have refused : service.world.isFired .accepting = true := by
        rw [advances.isFired_accepting, Bool.or_eq_true, decide_eq_true_eq]
        exact or_iff_not_imp_left.2 (h.refusing call (List.mem_of_getElem? hk))
      refine h.others advances.timeline.1 config (fun handles has => ?_) advances.meddles.1
        (fun _ _ _ => refused) (.inr refused)
      rcases advances.handles with ⟨-, same⟩ | ⟨-, -, gone⟩
      · exact same ▸ has
      · cases gone.symm.trans has
    | work i exec => exact h.work run hs
    | sweep i =>
      obtain ⟨_, _, w, -, hstep, rfl, tasks, handles, calls, -⟩ := step_sweep hs
      obtain ⟨meddles, spares⟩ := SweeperTask.meddles_of_step hstep
      refine h.others tasks config (fun _ has => handles ▸ has) meddles ?_ (.inl spares)
      rw [calls]
      exact fun call hcall past => meddles.fired _ (h.refusing call hcall past)
    | request _ now r =>
      cases hs
      exact h.others rfl rfl (fun _ => id) .refl h.refusing (.inl ⟨rfl, rfl⟩)
    | create k =>
      obtain ⟨_, _, p, -, hstep, hworld, tasks, handles, calls, -⟩ := step_create hs
      obtain ⟨line, isOpen⟩ := (Creation.proceeds_of_step hstep).queue
      have spares : s.world.Spares s'.world := by rw [hworld]; exact ⟨isOpen, rfl⟩
      have meddles : s.world.Meddles s'.world := spares.meddles (by rw [hworld]; exact line)
      refine h.others tasks config (fun _ has => handles ▸ has) meddles ?_ (.inl spares)
      rw [calls]
      exact fun call hcall past => meddles.fired _ (h.refusing call hcall past)
    | wait ms =>
      cases hs
      exact h.others rfl rfl (fun _ => id) ⟨⟨id, fun _ => id⟩, rfl⟩ h.refusing (.inl ⟨rfl, rfl⟩)

/-- While somebody is at work and an id is buffered, somebody goes on. -/
theorem can_go (h : origin.Watched events s) {t : Task} (ht : t ∈ s.tasks) (alive : t.ended = false)
    (buffered : s.queue.buffer ≠ []) :
    ∃ i ms, ∀ exec, ∃ later next, s.step (.wait ms) = some later ∧
      later.step (.work i exec) = some next := by
  have moves (i ms : Nat) (t : Task) (ht : s.tasks[i]? = some t)
      (able : ∀ exec, (t.step exec { s.world with
        clock := max s.world.clock (s.world.clock + ms) }).isSome = true) :
      ∃ i ms, ∀ exec, ∃ later next, s.step (.wait ms) = some later ∧
        later.step (.work i exec) = some next := by
    refine ⟨i, ms, fun exec => ?_⟩
    let later : Stage := { s with service :=
      { s.service with timeline := s.service.timeline.movedTo (s.world.clock + ms) } }
    obtain ⟨next, hnext⟩ := exists_step_work (s := later) ht (able exec)
    exact ⟨later, next, rfl, hnext⟩
  obtain ⟨i, ht⟩ := List.mem_iff_getElem?.1 ht
  by_cases waiting : t.worker = .waiting
  · -- Somebody is in the line, so somebody is the first in it.
    have seat : i ∈ s.queue.suspended := (h.seated i).2 ⟨t, ht, waiting⟩
    obtain ⟨r, behind, line⟩ := List.exists_cons_of_ne_nil (List.ne_nil_of_mem seat)
    obtain ⟨u, hu, waiting⟩ := (h.seated r).1 (by rw [line]; exact List.mem_cons_self)
    refine moves r 0 u hu fun exec => Task.isSome_step_of_canServe waiting ?_
    rw [(h.steady r u hu).name]
    simp [Queue.canServe, line, buffered]
  · obtain ⟨time, able⟩ := (h.steady i t ht).can_go alive waiting
    refine moves i time t ht fun exec => able exec _ ?_
    exact le_trans (Nat.le_add_left _ _) (le_max_right _ _)

end Watched

theorem watched_of_live {config : JobsConfig} {exec : Executor} {service : Service}
    (built : Service.withExecutor config exec = .ok service) {events : List Event}
    {log : List Notice} {e : Stage} (run : live anyhow events [] (fresh service) = some (log, e)) :
    (fresh service).Watched events e := by
  obtain ⟨-, -, rfl⟩ := Service.withExecutor_eq_ok_iff.1 built
  induction events using List.reverseRecOn generalizing log e with
  | nil => cases run; exact .of_fresh config exec
  | append_singleton events event ih =>
    obtain ⟨past, s, run, step, -⟩ := live_concat.1 run
    exact (ih run).advance run step

/-! ## What readiness means -/

theorem readiness_eq (s : Service) :
    (Api.readiness s).status = 200 ↔ s.isRunning = true ∧ s.isAccepting = true := by
  rw [← Bool.and_eq_true, ← Service.isReady]
  cases h : s.isReady <;> simp [Api.readiness, h, Api.Response.empty]

/-- **A ready service is staffed, as far as its workloads allow.** Take any run of a service, with
any workloads and jobs, and any starts, shutdowns and creations, that leads to where it is reported
ready. Then the service has a pool of as many workers as configured, and of these

  * every one has not ended, or has died of a workload that it began itself, or has gone home
    because the queue is closed or the token of the workers fired, which was a workload's doing;
  * every one that began no workload that panics has not ended, if the workloads leave the shared
    parts alone;
  * some worker goes on, now or later, as long as one has not ended and an id is buffered. -/
theorem ready_service_is_staffed {config : JobsConfig} {exec : Executor} {service : Service}
    (built : Service.withExecutor config exec = .ok service) {events : List Event}
    {log : List Notice} {e : Stage} (run : live anyhow events [] (fresh service) = some (log, e))
    (ready : (Api.readiness e.service).status = 200) :
    ∃ handles, e.service.handles = some handles ∧
      handles.workers.length = config.worker.concurrency.toNat ∧ handles.workers ≠ [] ∧
      (∀ i ∈ handles.workers, ∃ t, e.tasks[i]? = some t ∧ (t.ended = false ∨
        (t.worker = .died ∧ (fresh service).Panicked events i) ∨
        (t.worker = .stopped ∧ Meddled events ∧
          (e.world.isFired .workers = true ∨ e.queue.isOpen = false)))) ∧
      ((∀ event ∈ events, event.Plain) → ∀ i ∈ handles.workers,
        ¬ (fresh service).Panicked events i → ∃ t, e.tasks[i]? = some t ∧ t.ended = false) ∧
      ((∃ t ∈ e.tasks, t.ended = false) → e.queue.buffer ≠ [] →
        ∃ i ms, ∀ exec, ∃ later next, e.step (.wait ms) = some later ∧
          later.step (.work i exec) = some next) := by
  have watched := watched_of_live built run
  obtain ⟨valid, -, rfl⟩ := Service.withExecutor_eq_ok_iff.1 built
  obtain ⟨running, accepting⟩ := (readiness_eq _).1 ready
  obtain ⟨handles, has⟩ := Option.isSome_iff_exists.1 running
  obtain ⟨same, pool⟩ := watched.pool
  obtain ⟨size, seats⟩ := pool handles has
  have size : handles.workers.length = config.worker.concurrency.toNat := by rw [size, same]; rfl
  have staffed : handles.workers ≠ [] := by
    rw [Ne, ← List.length_eq_zero_iff, size]
    have := (JobsConfig.validate_eq_ok_iff.1 valid).2.1
    rwa [Ne, ← UInt64.toNat_inj] at this
  -- Creations are not refused, so no shutdown has touched the queue or the token.
  have refused : ¬ e.world.isFired .accepting = true := by
    simpa [Service.isAccepting, Service.world] using accepting
  have fate (i : Nat) (hi : i ∈ handles.workers) : ∃ t, e.tasks[i]? = some t ∧
      (t.ended = false ∨ (t.worker = .died ∧ (fresh (.ofConfig config exec)).Panicked events i) ∨
        (t.worker = .stopped ∧ Meddled events ∧
          (e.world.isFired .workers = true ∨ e.queue.isOpen = false))) := by
    obtain ⟨t, ht⟩ : ∃ t, e.tasks[i]? = some t := ⟨_, List.getElem?_eq_getElem (seats i hi)⟩
    have steady := watched.steady i t ht
    refine ⟨t, ht, ?_⟩
    rw [← Bool.not_eq_true, steady.ended_iff]
    by_cases stopped : t.worker = .stopped
    · have touched := steady.dismissed (.inl stopped)
      exact .inr (.inr ⟨stopped, (watched.untouched touched).resolve_left refused, touched⟩)
    · by_cases died : t.worker = .died
      · exact .inr (.inl ⟨died, watched.bereaved i t ht (.inl died)⟩)
      · exact .inl (not_or.2 ⟨stopped, died⟩)
  refine ⟨handles, has, size, staffed, fate, fun plain i hi unhurt => ?_, ?_⟩
  · obtain ⟨t, ht, alive | ⟨-, panicked⟩ | ⟨-, ⟨event, hevent, meddled⟩, -⟩⟩ := fate i hi
    · exact ⟨t, ht, alive⟩
    · exact absurd panicked unhurt
    · exact absurd (plain event hevent) meddled
  · rintro ⟨t, ht, alive⟩ buffered
    exact watched.can_go ht alive buffered

/-! ## A workload that panics -/

/-- The workload of every job panics. -/
def panicking : Executor := fun _ => ⟨[], 0, .panic, false⟩

/-- A service with room for one id and these workloads. -/
def fragile (concurrency : UInt64) : Service :=
  .ofConfig { queue := { capacity := 1 }, worker := { concurrency } } panicking

/-- The first worker dies of the first job, and then there is a second one. -/
def firstJobPanics : List Event :=
  .start :: (creating ⟨"a"⟩ 0 ++ List.replicate 4 (Turn.work 0 panicking) ++ creating ⟨"b"⟩ 1).map .turn

/-- Of two workers one is left and goes on with the second job. -/
theorem ready_with_one_of_two : ∃ log e, Service.withExecutor (fragile 2).config panicking =
      .ok (fragile 2) ∧ live anyhow firstJobPanics [] (fresh (fragile 2)) = some (log, e) ∧
      (Api.readiness e.service).status = 200 ∧ (∃ t, e.tasks[1]? = some t ∧ t.ended = false) ∧
      ∃ i ms, ∀ exec, ∃ later next, e.step (.wait ms) = some later ∧
        later.step (.work i exec) = some next := by
  have built : Service.withExecutor (fragile 2).config panicking = .ok (fragile 2) := rfl
  obtain ⟨log, e, run, ready, given, buffered⟩ : ∃ log e,
      live anyhow firstJobPanics [] (fresh (fragile 2)) = some (log, e) ∧
      (Api.readiness e.service).status = 200 ∧ e.service.handles = some ⟨0, [0, 1]⟩ ∧
      e.queue.buffer = [⟨"b"⟩] := ⟨_, _, rfl, rfl, rfl, rfl⟩
  obtain ⟨handles, has, -, -, -, unhurt, moves⟩ := ready_service_is_staffed built run ready
  obtain rfl : ⟨0, [0, 1]⟩ = handles := Option.some.inj (given.symm.trans has)
  have plain : ∀ event ∈ firstJobPanics, event.Plain := by
    simp [firstJobPanics, creating, Event.Plain, Executor.Plain, panicking]
  have never : ¬ (fresh (fragile 2)).Panicked firstJobPanics 1 := by
    rintro ⟨before, exec, -, -, -, -, earlier, -⟩
    have := earlier.subset (List.mem_append_right _ List.mem_cons_self)
    simp [firstJobPanics, creating] at this
  obtain ⟨t, ht, alive⟩ := unhurt plain 1 (by decide) never
  refine ⟨log, e, built, run, ready, ⟨t, ht, alive⟩, moves ⟨t, List.mem_of_getElem? ht, alive⟩ ?_⟩
  rw [buffered]
  exact List.cons_ne_nil _ _

/-- Of one worker none is left, and the service is ready. -/
theorem ready_without_workers : ∃ log e, Service.withExecutor (fragile 1).config panicking =
      .ok (fragile 1) ∧ live anyhow firstJobPanics [] (fresh (fragile 1)) = some (log, e) ∧
      (Api.readiness e.service).status = 200 ∧ e.tasks.length = 1 ∧ (∀ t ∈ e.tasks, t.ended = true) ∧
      e.queue.buffer = [⟨"b"⟩] :=
  ⟨_, _, rfl, rfl, rfl, rfl, List.all_eq_true.1 rfl, rfl⟩

end Stage
end JobPipeline
