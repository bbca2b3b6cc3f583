import JobPipeline.Proofs.Service.Floor

/-!
# Shutdowns that keep to their turn

The workers of a service stop in two ways. They go home when the queue is closed and empty, or they
are told to stop, and then they give up what they have in hand. A shutdown tells them only if their
grace is over, or when it is about to return.

So while no grace runs out (`Stage.timely`) and no shutdown returns before the one that waits for
the workers is done (`Stage.inTurn`), nobody gives up a job. `Stage.Guarded` is the invariant behind
this: as long as a worker is not home, the handles of the workers are with the service, or with a
shutdown that waits for them.
-/

namespace JobPipeline

theorem World.isFired_fire (w : World) (t t' : Token) :
    (w.fire t).isFired t' = (t.path.isPrefixOf t'.path || w.isFired t') := by
  simp [World.isFired, Token.isFired, World.fire]

/-- The workers a shutdown waits for, or will wait for. -/
def Shutdown.awaited : Shutdown → Option (List Nat)
  | .holding handles => handles.map Handles.workers
  | .awaitingSweeper handles => some handles.workers
  | .closing workers => workers
  | .draining workers _ => some workers
  | .joining workers => some workers
  | _ => none

/-- Whether a shutdown has looked for the handles. -/
def Shutdown.hasTaken : Shutdown → Bool
  | .begun => false
  | .refusing => false
  | _ => true

/-- One move of a shutdown, and the service it leaves. -/
inductive Shutdown.Advances (s : Service) : Shutdown → Shutdown → Service → Prop
  | refuse : Advances s .begun .refusing (s.fire .accepting)
  | take : Advances s .refusing (.holding s.handles) { s with handles := none }
  /-- There is no sweeper to wait for. -/
  | pass : Advances s (.holding none) (.closing none) (s.fire .sweeper)
  | halt (handles : Handles) :
      Advances s (.holding (some handles)) (.awaitingSweeper handles) (s.fire .sweeper)
  | swept (handles : Handles) :
      Advances s (.awaitingSweeper handles) (.closing (some handles.workers)) s
  /-- There are no workers to wait for. -/
  | shut : Advances s (.closing none) .finishing s.closeQueue
  | close (workers : List Nat) : Advances s (.closing (some workers))
      (.draining workers (s.world.clock + s.grace)) s.closeQueue
  | drained {workers : List Nat} (deadline : Nat) (ended : s.workersEnded workers = true) :
      Advances s (.draining workers deadline) .finishing s
  | expire {workers : List Nat} {deadline : Nat} (late : s.workersEnded workers = false) :
      Advances s (.draining workers deadline) (.joining workers) (s.fire .workers)
  | joined (workers : List Nat) : Advances s (.joining workers) .finishing s
  | mark : Advances s .finishing .returned (s.fire .shutdown)

theorem Shutdown.advances_of_step {call call' : Shutdown} {s s' : Service}
    (hs : call.step s = some (call', s')) : call.Advances s call' s' := by
  cases call with
  | begun => cases hs; exact .refuse
  | refusing => cases hs; exact .take
  | holding handles =>
    cases handles with
    | none => cases hs; exact .pass
    | some handles => cases hs; exact .halt handles
  | awaitingSweeper handles =>
    simp only [step] at hs
    split at hs
    · cases hs; exact .swept handles
    · cases hs
  | closing workers =>
    cases workers with
    | none => cases hs; exact .shut
    | some workers => cases hs; exact .close workers
  | draining workers deadline =>
    simp only [step] at hs
    split at hs
    · rename_i ended; cases hs; exact .drained deadline ended
    · rename_i late
      split at hs
      · cases hs; exact .expire (by simpa using late)
      · cases hs
  | joining workers =>
    simp only [step] at hs
    split at hs
    · cases hs; exact .joined workers
    · cases hs
  | finishing => cases hs; exact .mark
  | returned => cases hs

theorem SweeperTask.stirs_of_step {t t' : SweeperTask} {w w' : World} (refused : Bool)
    (hs : t.step w = some (t', w')) :
    w.pipeline.Stirs refused w'.pipeline ∧ w'.fired = w.fired := by
  cases moves_of_step hs with
  | sweep _ proceeds => exact ⟨.of_sweep proceeds, rfl⟩
  | _ => exact ⟨.rest, rfl⟩

/-- No creation begins anew. -/
theorem Creation.ne_storing {refused : Bool} {c c' : Creation} {p p' : Pipeline}
    (hs : c.step refused p = some (c', p')) (job : Job) : c' ≠ .storing job := by
  cases proceeds_of_step hs <;> exact nofun

namespace Stage

/-- No shutdown loses patience with the workers. -/
def timely (s : Stage) : Turn → Bool
  | .proceed k => match s.calls[k]? with
    | some (.draining workers _) => s.service.workersEnded workers
    | _ => true
  | _ => true

/-- No shutdown returns while another one waits for the workers. -/
def inTurn (s : Stage) : Turn → Bool
  | .proceed k => match s.calls[k]? with
    | some .finishing => s.calls.all fun call => call.awaited.isNone
    | _ => true
  | _ => true

/-- The workers and the shared parts. -/
def floor (s : Stage) : Floor := ⟨s.tasks.map Task.worker, s.pipeline⟩

/-- All workers have gone home. -/
def Home (s : Stage) : Prop := ∀ t ∈ s.tasks, t.worker = .stopped

theorem Home.deserted {s : Stage} (home : s.Home) : s.floor.Deserted := by
  intro w hw
  obtain ⟨t, ht, rfl⟩ := List.mem_map.1 hw
  exact home t ht

/-- The positions are those of all workers. -/
def Covers (s : Stage) (workers : List Nat) : Prop := ∀ i < s.tasks.length, i ∈ workers

theorem home_congr {s s' : Stage} (tasks : s'.tasks = s.tasks) : s'.Home ↔ s.Home := by
  rw [Home, Home, tasks]

theorem covers_congr {s s' : Stage} (tasks : s'.tasks = s.tasks) (workers : List Nat) :
    s'.Covers workers ↔ s.Covers workers := by
  rw [Covers, Covers, tasks]

/-- A service with shutdowns under way, of which none has lost patience or overtaken another.

  * `crew`      — no worker has been taken down or has given up a job.
  * `newborn`   — creations under way bring pending jobs.
  * `quit`      — workers go home only when the queue has ended.
  * `guarded`   — somebody has the handles of the workers, unless these are home.
  * `taken`     — a shutdown that has looked for the handles has left none.
  * `patient`   — no shutdown has told the workers to stop.
  * `unstopped` — nobody has.
  * `settled`   — once a shutdown has returned the workers are home. -/
structure Guarded (ok : WorkResult → Prop) (s : Stage) : Prop where
  crew : ∀ t ∈ s.tasks, t.Sound ok
  newborn : ∀ job, .storing job ∈ s.creations → job.status = .pending
  quit : ∀ t ∈ s.tasks, t.worker = .stopped → s.queue.buffer = [] ∧ s.queue.isOpen = false
  guarded : (∃ handles, s.service.handles = some handles ∧ s.Covers handles.workers) ∨
    (∃ call ∈ s.calls, ∃ workers, call.awaited = some workers ∧ s.Covers workers) ∨ s.Home
  taken : ∀ call ∈ s.calls, call.hasTaken = true → s.service.handles = none
  patient : ∀ workers, .joining workers ∉ s.calls
  unstopped : s.world.isFired .workers = false ∨ s.Home
  settled : .returned ∈ s.calls → s.Home

namespace Guarded

variable {ok : WorkResult → Prop} {s s' : Stage} {turn : Turn}

/-- Workers that are waited for and have ended are home. -/
theorem home (h : s.Guarded ok) {workers : List Nat} (covers : s.Covers workers)
    (ended : s.service.workersEnded workers = true) : s.Home := by
  intro t ht
  obtain ⟨i, hi⟩ := List.mem_iff_getElem?.1 ht
  have hlt := (List.getElem?_eq_some_iff.1 hi).1
  have hended := List.all_eq_true.1 ended i (covers i hlt)
  rw [show s.service.timeline.workers[i]? = some t from hi, Option.all_some] at hended
  exact (h.crew t ht).ended_iff.1 hended

/-- A worker at home does not move. -/
theorem not_home (exec : Executor) {t : Task} {w : World} {x : Task × World}
    (hs : t.step exec w = some x) : t.worker ≠ .stopped := by
  intro h
  simp [Task.step, h] at hs

/-- The turn of a worker is a move that nothing stops. -/
theorem work (h : s.Guarded ok) {i : Nat} {exec : Executor} (yields : exec.Yields ok)
    (hs : s.step (.work i exec) = some s') :
    ∃ t t', s.tasks[i]? = some t ∧ s'.tasks = s.tasks.set i t' ∧
      t.worker.Tends ok s.pipeline t'.worker s'.pipeline ∧ Task.Kept ok t t' s.world s'.world ∧
      s'.service.handles = s.service.handles ∧ s'.calls = s.calls ∧
      s'.creations = s.creations ∧ ¬ s.Home := by
  obtain ⟨t, t', w, ht, hstep, hworld, htasks, hhandles, hcalls, hcreations⟩ := step_work hs
  have hmem := List.mem_of_getElem? ht
  have away : ¬ s.Home := fun home => not_home exec hstep (home t hmem)
  have sound := h.crew t hmem
  have running : s.world.isFired t.stop = false := by
    rw [sound.stop]; exact h.unstopped.resolve_right away
  obtain ⟨tends, kept⟩ := Task.step_tends yields sound running hstep
  rw [← hworld] at tends kept
  exact ⟨t, t', ht, htasks, tends, kept, hhandles, hcalls, hcreations, away⟩

/-- Nobody opens a closed queue or fills it. -/
theorem quit_of_stirs (h : s.Guarded ok) {refused : Bool}
    (stirs : s.pipeline.Stirs refused s'.pipeline) :
    ∀ t ∈ s.tasks, t.worker = .stopped → s'.queue.buffer = [] ∧ s'.queue.isOpen = false := by
  intro t ht hstopped
  obtain ⟨empty, closed⟩ := h.quit t ht hstopped
  have alike := stirs.queue closed
  exact ⟨alike.1.trans empty, alike.2.trans closed⟩

/-- A turn of somebody else that leaves the calls alone. -/
theorem stir (h : s.Guarded ok) (refused : Bool) (stirs : s.pipeline.Stirs refused s'.pipeline)
    (tasks : s'.tasks = s.tasks) (fired : s'.world.fired = s.world.fired)
    (handles : s'.service.handles = s.service.handles) (calls : s'.calls = s.calls)
    (newborn : ∀ job, .storing job ∈ s'.creations → job.status = .pending) : s'.Guarded ok where
  crew := by rw [tasks]; exact h.crew
  newborn := newborn
  quit := by rw [tasks]; exact h.quit_of_stirs stirs
  guarded := by
    rw [handles, calls, home_congr tasks]
    simp only [covers_congr tasks]
    exact h.guarded
  taken := by rw [calls, handles]; exact h.taken
  patient := by rw [calls]; exact h.patient
  unstopped := by rw [World.isFired, fired, home_congr tasks]; exact h.unstopped
  settled := by rw [calls, home_congr tasks]; exact h.settled

/-- What the move of a shutdown has to show: only the guard, and what the call comes to, are at
stake. -/
theorem advance (h : s.Guarded ok) {k : Nat} {call' : Shutdown}
    (calls : s'.calls = s.calls.set k call') (tasks : s'.tasks = s.tasks)
    (creations : s'.creations = s.creations) (stirs : s.pipeline.Stirs true s'.pipeline)
    (guarded : (∃ handles, s'.service.handles = some handles ∧ s.Covers handles.workers) ∨
      (∃ c ∈ s.calls.set k call', ∃ workers, c.awaited = some workers ∧ s.Covers workers) ∨ s.Home)
    (gone : s.service.handles = none → s'.service.handles = none)
    (taken : call'.hasTaken = true → s'.service.handles = none)
    (patient : ∀ workers, call' ≠ .joining workers)
    (unstopped : s'.world.isFired .workers = false ∨ s.Home)
    (settled : call' = .returned → s.Home) : s'.Guarded ok where
  crew := by rw [tasks]; exact h.crew
  newborn := by rw [creations]; exact h.newborn
  quit := by rw [tasks]; exact h.quit_of_stirs stirs
  guarded := by
    rw [calls, home_congr tasks]
    simp only [covers_congr tasks]
    exact guarded
  taken := by
    rw [calls]
    intro c hc htaken
    rcases List.mem_or_eq_of_mem_set hc with hc | rfl
    · exact gone (h.taken c hc htaken)
    · exact taken htaken
  patient := by
    rw [calls]
    intro workers hmem
    rcases List.mem_or_eq_of_mem_set hmem with hmem | heq
    · exact h.patient workers hmem
    · exact patient workers heq.symm
  unstopped := by rw [home_congr tasks]; exact unstopped
  settled := by
    rw [calls, home_congr tasks]
    intro hmem
    rcases List.mem_or_eq_of_mem_set hmem with hmem | heq
    · exact h.settled hmem
    · exact settled heq.symm

/-- A move of a shutdown that keeps what it waits for. -/
theorem proceed (h : s.Guarded ok) {k : Nat} {call call' : Shutdown}
    (hk : s.calls[k]? = some call) (calls : s'.calls = s.calls.set k call')
    (tasks : s'.tasks = s.tasks) (handles : s'.service.handles = s.service.handles)
    (creations : s'.creations = s.creations)
    (fired : s'.world.isFired .workers = s.world.isFired .workers)
    (stirs : s.pipeline.Stirs true s'.pipeline) (awaited : call'.awaited = call.awaited)
    (taken : call'.hasTaken = true → call.hasTaken = true)
    (patient : ∀ workers, call' ≠ .joining workers) (staying : call' ≠ .returned) :
    s'.Guarded ok := by
  refine h.advance calls tasks creations stirs ?_ handles.trans
    (fun htaken => handles.trans (h.taken call (List.mem_of_getElem? hk) (taken htaken)))
    patient (by rw [fired]; exact h.unstopped) fun heq => absurd heq staying
  rcases h.guarded with hservice | ⟨c, hc, workers, hw, covers⟩ | home
  · rw [handles]
    exact .inl hservice
  · refine .inr (.inl ?_)
    by_cases hcall : c = call
    · exact ⟨call', mem_set_self hk call', workers, by rw [awaited, ← hcall]; exact hw, covers⟩
    · exact ⟨c, mem_set_of_ne hk hc hcall call', workers, hw, covers⟩
  · exact .inr (.inr home)

/-- A shutdown that takes the handles guards the workers from then on. -/
theorem take (h : s.Guarded ok) {k : Nat} (hk : s.calls[k]? = some .refusing) :
    Guarded ok { s with
      service := { s.service with handles := none }
      calls := s.calls.set k (.holding s.service.handles) } := by
  refine h.advance rfl rfl rfl .rest ?_ (fun _ => rfl) (fun _ => rfl) nofun h.unstopped nofun
  rcases h.guarded with ⟨handles, hservice, covers⟩ | ⟨c, hc, workers, hw, covers⟩ | home
  · refine .inr (.inl ⟨_, mem_set_self hk _, handles.workers, ?_, covers⟩)
    rw [hservice]; rfl
  · have hcall : c ≠ .refusing := by rintro rfl; cases hw
    exact .inr (.inl ⟨c, mem_set_of_ne hk hc hcall _, workers, hw, covers⟩)
  · exact .inr (.inr home)

/-- A shutdown whose workers have ended lets go of them. -/
theorem release (h : s.Guarded ok) {k : Nat} {workers : List Nat} {deadline : Nat}
    (hk : s.calls[k]? = some (.draining workers deadline))
    (ended : s.service.workersEnded workers = true) :
    Guarded ok { s with calls := s.calls.set k .finishing } := by
  have gone := h.taken _ (List.mem_of_getElem? hk) rfl
  refine h.advance rfl rfl rfl .rest ?_ id (fun _ => gone) nofun h.unstopped nofun
  rcases h.guarded with hservice | ⟨c, hc, workers', hw, covers⟩ | home
  · exact .inl hservice
  · by_cases hcall : c = .draining workers deadline
    · subst hcall
      cases hw
      exact .inr (.inr (h.home covers ended))
    · exact .inr (.inl ⟨c, mem_set_of_ne hk hc hcall _, workers', hw, covers⟩)
  · exact .inr (.inr home)

/-- When nobody has or awaits the handles, the workers are home. -/
theorem home_of_finishing (h : s.Guarded ok) (hmem : .finishing ∈ s.calls)
    (nobody : ∀ call ∈ s.calls, call.awaited = none) : s.Home := by
  rcases h.guarded with ⟨handles, hservice, -⟩ | ⟨c, hc, workers, hw, -⟩ | home
  · have hnone := h.taken .finishing hmem rfl
    rw [hservice] at hnone
    cases hnone
  · rw [nobody c hc] at hw
    cases hw
  · exact home

/-- A shutdown that returns in its turn leaves nobody behind. -/
theorem depart (h : s.Guarded ok) {k : Nat} (hk : s.calls[k]? = some .finishing)
    (nobody : ∀ call ∈ s.calls, call.awaited = none) :
    Guarded ok { s with
      service := s.service.fire .shutdown, calls := s.calls.set k .returned } := by
  have hmem := List.mem_of_getElem? hk
  -- From here on the workers may be told to stop: there is nobody to hear it.
  have home : s.Home := h.home_of_finishing hmem nobody
  exact h.advance rfl rfl rfl .rest (.inr (.inr home)) id (fun _ => h.taken _ hmem rfl) nofun
    (.inr home) fun _ => home

/-- The next move of a shutdown that keeps to its turn. -/
theorem shutdown (h : s.Guarded ok) {k : Nat} (timely : s.timely (.proceed k) = true)
    (inTurn : s.inTurn (.proceed k) = true) (hs : s.step (.proceed k) = some s') :
    s'.Guarded ok := by
  obtain ⟨call, call', service, hk, hstep, rfl⟩ := step_proceed_iff.1 hs
  have fires (t : Token) (hworkers : t.path.isPrefixOf Token.workers.path = false) :
      (s.world.fire t).isFired .workers = s.world.isFired .workers := by
    rw [World.isFired_fire, hworkers, Bool.false_or]
  cases Shutdown.advances_of_step hstep with
  | refuse =>
    exact h.proceed hk rfl rfl rfl rfl (fires .accepting rfl) .rest rfl id nofun nofun
  | take => exact h.take hk
  | pass => exact h.proceed hk rfl rfl rfl rfl (fires .sweeper rfl) .rest rfl id nofun nofun
  | halt => exact h.proceed hk rfl rfl rfl rfl (fires .sweeper rfl) .rest rfl id nofun nofun
  | swept => exact h.proceed hk rfl rfl rfl rfl rfl .rest rfl id nofun nofun
  | shut => exact h.proceed hk rfl rfl rfl rfl rfl .close rfl id nofun nofun
  | close => exact h.proceed hk rfl rfl rfl rfl rfl .close rfl id nofun nofun
  | drained deadline ended => exact h.release hk ended
  | expire late => simp [Stage.timely, hk, late] at timely
  | joined workers => exact absurd (List.mem_of_getElem? hk) (h.patient workers)
  | mark => exact h.depart hk (by simpa [Stage.inTurn, hk] using inTurn)

/-- A turn of a worker. -/
theorem tend (h : s.Guarded ok) {i : Nat} {exec : Executor} (yields : exec.Yields ok)
    (hs : s.step (.work i exec) = some s') : s'.Guarded ok := by
  obtain ⟨t, t', ht, tasks, tends, kept, handles, calls, creations, away⟩ := h.work yields hs
  have length : s'.tasks.length = s.tasks.length := by rw [tasks, List.length_set]
  have covers {workers : List Nat} (hw : s.Covers workers) : s'.Covers workers := by
    rwa [Covers, length]
  refine ⟨?_, ?_, ?_, ?_, ?_, ?_, ?_, ?_⟩
  · -- crew
    rw [tasks]
    intro u hu
    rcases List.mem_or_eq_of_mem_set hu with hu | rfl
    · exact h.crew u hu
    · exact (h.crew t (List.mem_of_getElem? ht)).of_tends tends kept
  · -- newborn
    rw [creations]; exact h.newborn
  · -- quit
    rw [tasks]
    intro u hu hstopped
    rcases List.mem_or_eq_of_mem_set hu with hu | rfl
    · obtain ⟨empty, closed⟩ := h.quit u hu hstopped
      obtain ⟨closed', ⟨id, -, hbuffer⟩ | ⟨-, hbuffer⟩⟩ := tends.queue closed
      · rw [empty] at hbuffer; cases hbuffer
      · exact ⟨hbuffer.trans empty, closed'⟩
    · exact tends.upright.2.2.2 hstopped
  · -- guarded
    rw [handles, calls]
    rcases h.guarded with ⟨handles, hservice, hcovers⟩ | ⟨c, hc, workers, hw, hcovers⟩ | home
    · exact .inl ⟨handles, hservice, covers hcovers⟩
    · exact .inr (.inl ⟨c, hc, workers, hw, covers hcovers⟩)
    · exact absurd home away
  · -- taken
    rw [calls, handles]; exact h.taken
  · -- patient
    rw [calls]; exact h.patient
  · -- unstopped
    rw [World.isFired, kept.fired]
    exact .inl (h.unstopped.resolve_right away)
  · -- settled
    rw [calls]
    intro hmem
    exact absurd (h.settled hmem) away

/-- Somebody asks for a shutdown. -/
theorem ask (h : s.Guarded ok) : Guarded ok { s with calls := s.calls ++ [.begun] } where
  crew := h.crew
  newborn := h.newborn
  quit := h.quit
  guarded := by
    rcases h.guarded with hservice | ⟨c, hc, workers, hw, covers⟩ | home
    · exact .inl hservice
    · exact .inr (.inl ⟨c, List.mem_append_left _ hc, workers, hw, covers⟩)
    · exact .inr (.inr home)
  taken c hc htaken := by
    rcases List.mem_append.1 hc with hc | hc
    · exact h.taken c hc htaken
    · rw [List.mem_singleton.1 hc] at htaken; cases htaken
  patient workers hmem := by
    rcases List.mem_append.1 hmem with hmem | hmem
    · exact h.patient workers hmem
    · cases List.mem_singleton.1 hmem
  unstopped := h.unstopped
  settled hmem := by
    rcases List.mem_append.1 hmem with hmem | hmem
    · exact h.settled hmem
    · cases List.mem_singleton.1 hmem

/-- **Every turn keeps the workers guarded.** -/
theorem step (h : s.Guarded ok) (yields : turn.Yields ok) (timely : s.timely turn = true)
    (inTurn : s.inTurn turn = true) (hs : s.step turn = some s') : s'.Guarded ok := by
  cases turn with
  | call => cases hs; exact h.ask
  | proceed k => exact h.shutdown timely inTurn hs
  | work i exec => exact h.tend yields hs
  | sweep i =>
    obtain ⟨t, t', w, -, hstep, rfl, tasks, handles, calls, creations⟩ := step_sweep hs
    obtain ⟨stirs, fired⟩ := SweeperTask.stirs_of_step true hstep
    exact h.stir true stirs tasks fired handles calls (by rw [creations]; exact h.newborn)
  | request id now r =>
    cases hs
    refine h.stir true .rest rfl rfl rfl rfl fun job hmem => ?_
    rcases List.mem_append.1 hmem with hmem | hmem
    · exact h.newborn job hmem
    · cases List.mem_singleton.1 hmem; rfl
  | create k =>
    obtain ⟨c, c', p, hc, hstep, hworld, tasks, handles, calls, creations⟩ := step_create hs
    have stirs : s.pipeline.Stirs (!s.service.isAccepting) p :=
      .of_creation (fun job heq => h.newborn job (heq ▸ List.mem_of_getElem? hc))
        (Creation.proceeds_of_step hstep)
    have pipeline : s'.pipeline = p := congrArg World.pipeline hworld
    rw [← pipeline] at stirs
    refine h.stir _ stirs tasks (by rw [hworld]) handles calls ?_
    rw [creations]
    intro job hmem
    rcases List.mem_or_eq_of_mem_set hmem with hmem | heq
    · exact h.newborn job hmem
    · exact absurd heq.symm (Creation.ne_storing hstep job)
  | wait ms =>
    cases hs
    exact h.stir true .rest rfl rfl rfl rfl h.newborn

/-! ## What a turn does on the floor -/

/-- A turn of anybody but a worker leaves the workers where they are. -/
theorem stirs (h : s.Guarded ok) (hs : s.step turn = some s')
    (idle : ∀ i exec, turn ≠ .work i exec) :
    s'.tasks = s.tasks ∧ s.pipeline.Stirs (!s.service.isAccepting) s'.pipeline ∧
      ∃ tokens, s'.world.fired = tokens ++ s.world.fired := by
  cases turn with
  | call => cases hs; exact ⟨rfl, .rest, [], rfl⟩
  | proceed k =>
    obtain ⟨call, call', service, hk, hstep, rfl⟩ := step_proceed_iff.1 hs
    cases Shutdown.advances_of_step hstep with
    | shut => exact ⟨rfl, .close, [], rfl⟩
    | close => exact ⟨rfl, .close, [], rfl⟩
    | refuse => exact ⟨rfl, .rest, [.accepting], rfl⟩
    | pass => exact ⟨rfl, .rest, [.sweeper], rfl⟩
    | halt => exact ⟨rfl, .rest, [.sweeper], rfl⟩
    | expire => exact ⟨rfl, .rest, [.workers], rfl⟩
    | mark => exact ⟨rfl, .rest, [.shutdown], rfl⟩
    | _ => exact ⟨rfl, .rest, [], rfl⟩
  | work i exec => exact absurd rfl (idle i exec)
  | sweep i =>
    obtain ⟨t, t', w, -, hstep, rfl, tasks, -⟩ := step_sweep hs
    obtain ⟨stirs, fired⟩ := SweeperTask.stirs_of_step (!s.service.isAccepting) hstep
    exact ⟨tasks, stirs, [], fired⟩
  | request id now r => cases hs; exact ⟨rfl, .rest, [], rfl⟩
  | create k =>
    obtain ⟨c, c', p, hc, hstep, hworld, tasks, -⟩ := step_create hs
    have stirs : s.pipeline.Stirs (!s.service.isAccepting) p :=
      .of_creation (fun job heq => h.newborn job (heq ▸ List.mem_of_getElem? hc))
        (Creation.proceeds_of_step hstep)
    have pipeline : s'.pipeline = p := congrArg World.pipeline hworld
    rw [← pipeline] at stirs
    exact ⟨tasks, stirs, [], by rw [hworld]; rfl⟩
  | wait ms => cases hs; exact ⟨rfl, .rest, [], rfl⟩

/-- **Every turn is a move of the floor.** -/
theorem moves (h : s.Guarded ok) (yields : turn.Yields ok) (hs : s.step turn = some s') :
    s.floor.Moves ok (!s.service.isAccepting) (s'.news turn) s'.floor ∧
      ∃ tokens, s'.world.fired = tokens ++ s.world.fired := by
  have others (idle : ∀ i exec, turn ≠ .work i exec) (silent : s'.news turn = []) :
      s.floor.Moves ok (!s.service.isAccepting) (s'.news turn) s'.floor ∧
        ∃ tokens, s'.world.fired = tokens ++ s.world.fired := by
    obtain ⟨tasks, stirs, fired⟩ := h.stirs hs idle
    have hfloor : s'.floor = ⟨s.floor.workers, s'.pipeline⟩ := by rw [floor, tasks]; rfl
    rw [silent, hfloor]
    exact ⟨.stir stirs, fired⟩
  cases turn with
  | work i exec =>
    obtain ⟨t, t', ht, tasks, tends, kept, -⟩ := h.work yields hs
    have seat : s.floor.workers[i]? = some t.worker := by simp [floor, ht]
    have hnews : s'.news (.work i exec) = [(i, t'.worker)] := by
      have hlt := (List.getElem?_eq_some_iff.1 ht).1
      simp [news, tasks, hlt]
    have hfloor : s'.floor = ⟨s.floor.workers.set i t'.worker, s'.pipeline⟩ := by
      rw [floor, tasks, List.map_set]; rfl
    rw [hnews, hfloor]
    exact ⟨.tend seat tends, [], kept.fired⟩
  | _ => exact others (fun _ _ => nofun) rfl

end Guarded
end Stage
end JobPipeline
