import JobPipeline.Proofs.Service.Guard

/-!
# Shutdowns at once

A shutdown may be asked for while another one is under way. The first to look takes the handles of
the workers and waits for them; the others find nothing to wait for. If each of these returns only
after the first is done, then no job is given up and none is left behind, whatever the order of all
the steps (`respectful_shutdowns`).

Nothing makes them wait, though. A shutdown that finds no handles goes on at once and marks the
whole service as shut down, and that tells the workers to stop: `overtaking_shutdown` shows one that
returns while the worker it has stopped leaves a job `processing`, with none of the grace used up.
-/

namespace JobPipeline.Stage

/-- No shutdown loses patience or overtakes another. -/
def orderly (s : Stage) (turn : Turn) : Bool := s.timely turn && s.inTurn turn

/-- A service that has been started, in any state of its store, its queue and its workers.

  * `staffed`   — there is a worker.
  * `crew`      — no worker has been taken down or has given up a job.
  * `newborn`   — creations under way bring pending jobs.
  * `quit`      — workers have gone home only if the queue has ended.
  * `handled`   — the service has the handles of the workers.
  * `unstopped` — nobody has told the workers to stop. -/
structure Running (ok : WorkResult → Prop) (s : Stage) : Prop where
  staffed : s.tasks ≠ []
  crew : ∀ t ∈ s.tasks, t.Sound ok
  newborn : ∀ job, .storing job ∈ s.creations → job.status = .pending
  quit : ∀ t ∈ s.tasks, t.worker = .stopped → s.queue.buffer = [] ∧ s.queue.isOpen = false
  handled : ∃ handles, s.service.handles = some handles ∧ s.Covers handles.workers
  unstopped : s.world.isFired .workers = false

variable {ok : WorkResult → Prop} {s e : Stage} {log : Log}

theorem Running.guarded (h : s.Running ok) (calls : ∀ call ∈ s.calls, call = .begun) :
    s.Guarded ok where
  crew := h.crew
  newborn := h.newborn
  quit := h.quit
  guarded := .inl h.handled
  taken call hmem htaken := by rw [calls call hmem] at htaken; cases htaken
  patient workers hmem := nomatch calls _ hmem
  unstopped := .inl h.unstopped
  settled hmem := nomatch calls _ hmem

/-- Starting a service without tasks makes it run. -/
theorem running_of_start {service started : Service} (h : service.start = .ok started)
    (idle : service.timeline.workers = []) (fresh : service.world.isFired .workers = false)
    (staffed : service.config.worker.concurrency ≠ 0) (calls : List Shutdown) :
    Running ok ⟨started, calls, []⟩ := by
  unfold Service.start at h
  split at h
  · cases h
  · split at h
    · cases h
    · simp only [idle, List.nil_append, List.length_nil, Nat.zero_add, List.map_id',
        Except.ok.injEq] at h
      subst h
      have spawned (t : Task)
          (ht : t ∈ (List.range service.config.worker.concurrency.toNat).map
            fun i => Task.spawn i .workers) : ∃ i, t = Task.spawn i .workers := by
        obtain ⟨i, -, rfl⟩ := List.mem_map.1 ht
        exact ⟨i, rfl⟩
      refine ⟨?_, ?_, nofun, ?_, ⟨_, rfl, ?_⟩, fresh⟩
      · have hne : service.config.worker.concurrency.toNat ≠ 0 := by
          intro hzero
          exact staffed (UInt64.toNat_inj.1 hzero)
        simpa [tasks] using hne
      · intro t ht
        obtain ⟨i, rfl⟩ := spawned t ht
        exact ⟨rfl, rfl, nofun, nofun, nofun, nofun⟩
      · intro t ht hstopped
        obtain ⟨i, rfl⟩ := spawned t ht
        cases hstopped
      · intro i hi
        simpa [tasks] using hi

namespace Run

theorem guarded (run : s.Run ok orderly log e) (h : s.Guarded ok) : e.Guarded ok := by
  induction run with
  | refl => exact h
  | tail _ yields allows step ih =>
    simp only [orderly, Bool.and_eq_true] at allows
    exact ih.step yields allows.1 allows.2 step

/-- What a worker has claimed is in the hands of a worker until it is reported. -/
theorem released (run : s.Run ok orderly log e) (h : s.Guarded ok) (id : JobId)
    (claimed : s.floor.Holds id ∨ id ∈ Stage.claimed log)
    (processing : e.store.status? id = some .processing) : e.floor.Holds id := by
  induction run generalizing id with
  | refl => exact claimed.resolve_right nofun
  | @tail log t t' turn run yields allows step ih =>
    obtain ⟨moves, -⟩ := (run.guarded h).moves yields step
    rw [claimed_append, List.mem_append, ← or_assoc] at claimed
    exact moves.released ih id claimed processing

end Run

/-- **Shutdowns that keep to their turn respect the work.** However many shutdowns are asked for,
and whatever the order of their steps and those of the workers: if no grace runs out and none returns
before the one that waits for the workers is done, then no worker gives up a job, and once one of
them has returned no job that a worker has claimed is still unreported. -/
theorem respectful_shutdowns (running : s.Running ok) (calls : ∀ call ∈ s.calls, call = .begun)
    (run : s.Run ok orderly log e) :
    (∀ t ∈ e.tasks, t.worker ≠ .handling (.done .aborted)) ∧
      (.returned ∈ e.calls → ∀ id, s.floor.Holds id ∨ id ∈ claimed log →
        e.store.status? id ≠ some .processing) := by
  have start := running.guarded calls
  have guarded := run.guarded start
  refine ⟨fun t ht => (guarded.crew t ht).unhurt, fun returned id claimed processing => ?_⟩
  have home := guarded.settled returned
  exact home.deserted.not_holds id (run.released start id claimed processing)

/-! ## One after the other, and across each other -/

/-- A service with one worker and room for one id. -/
def smallService : Service :=
  .ofConfig { queue := { capacity := 1 }, worker := { concurrency := 1 } }
    (.simulated 50 "always_fail")

/-- The small service, started. -/
def smallStarted : Service :=
  { smallService with
    timeline :=
      { smallService.timeline with
        workers := [.spawn 0 .workers], sweepers := [.spawn .sweeper 5000 0] }
    handles := some ⟨0, [0]⟩ }

theorem smallService_start : smallService.start = .ok smallStarted := rfl

theorem simulated_yields (latency : Nat) (kind : String) :
    (Executor.simulated latency kind).Yields fun _ => True :=
  fun _ => ⟨rfl, _, trivial, rfl⟩

/-- The small service with two shutdowns that have been asked for. -/
def twiceAsked : Stage := ⟨smallStarted, [.begun, .begun], []⟩

theorem twiceAsked_running : twiceAsked.Running fun _ => True :=
  running_of_start smallService_start rfl rfl (by decide) _

/-- The worker's next move, with workloads that take some time. -/
def workSlowly : Turn := .work 0 (.simulated 50 "always_fail")

/-- A job is created and its id offered; the creation is the `k`-th. -/
def creating (id : JobId) (k : Nat) : List Turn :=
  [.request id ⟨0, 0⟩ ⟨"email_send", [], none⟩, .create k, .create k, .create k]

/-- A job is created, and the worker starts on it. -/
def jobBegun : List Turn :=
  creating ⟨"a"⟩ 0 ++ [workSlowly, workSlowly, workSlowly, workSlowly]

/-- The worker ends its job and goes home. -/
def jobEnded : List Turn :=
  [.wait 50, workSlowly, workSlowly, workSlowly, workSlowly, workSlowly]

/-- The second shutdown finds no handles, and returns after the first. -/
theorem shutdowns_in_turn :
    ∃ log e, twiceAsked.Run (fun _ => True) orderly log e ∧ e.calls = [.returned, .returned] ∧
      ⟨"a"⟩ ∈ claimed log ∧ e.store.status? ⟨"a"⟩ ≠ some .processing := by
  let turns : List Turn := jobBegun ++ [.proceed 0, .proceed 0, .proceed 1, .proceed 1, .proceed 1,
    .proceed 1, .proceed 0, .sweep 0, .proceed 0, .proceed 0] ++ jobEnded ++
    [.proceed 0, .proceed 0, .proceed 1]
  have yields : ∀ turn ∈ turns, turn.Yields fun _ => True := by
    simp [turns, jobBegun, jobEnded, creating, workSlowly, Turn.Yields, simulated_yields]
  have run : twiceAsked.Run (fun _ => True) orderly _ _ := .of_play yields .refl rfl
  obtain ⟨-, reported⟩ := respectful_shutdowns twiceAsked_running (by decide) run
  exact ⟨_, _, run, rfl, by decide, reported (by decide) ⟨"a"⟩ (.inr (by decide))⟩

/-- The second shutdown goes all the way while the first one holds the handles, and
the worker is stopped in the middle of its job. -/
theorem overtaking_shutdown :
    ∃ log e, twiceAsked.Running (fun _ => True) ∧ (∀ call ∈ twiceAsked.calls, call = .begun) ∧
      twiceAsked.Run (fun _ => True) timely log e ∧
      (∃ t ∈ e.tasks, t.worker = .handling (.done .aborted)) ∧ .returned ∈ e.calls ∧
      ⟨"a"⟩ ∈ claimed log ∧ e.store.status? ⟨"a"⟩ = some .processing := by
  let turns : List Turn := jobBegun ++ [.proceed 0, .proceed 0, .proceed 1, .proceed 1, .proceed 1,
    .proceed 1, .proceed 1, workSlowly]
  have yields : ∀ turn ∈ turns, turn.Yields fun _ => True := by
    simp [turns, jobBegun, creating, workSlowly, Turn.Yields, simulated_yields]
  have run : twiceAsked.Run (fun _ => True) timely _ _ := .of_play yields .refl rfl
  exact ⟨_, _, twiceAsked_running, by decide, run, ⟨_, List.mem_cons_self, rfl⟩, by decide,
    by decide, rfl⟩

end JobPipeline.Stage
