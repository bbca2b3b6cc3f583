import JobPipeline.Config.Loader
import JobPipeline.Proofs.Service.Readiness
import JobPipeline.Timeline.Session

/-!
# What validation is good for

A configuration comes from a loader, which validates what it has read (`Loader.validate_of_load`),
or from a caller, for whom the service validates it. `JobsConfig.Runs` says what it is for that: a
service can be built of the configuration and started, and its sweeper and its workers go on.

An accepted configuration runs exactly if the capacity of its queue is at most `Queue.maxCapacity`
(`accepted_configuration_runs`). The capacities above that pass the validation as well, and building
a service of them takes the caller down (`oversized_queue_is_valid`).
-/

namespace JobPipeline

theorem Loader.validate_jobs {c : AppConfig} (h : validate c = .ok ()) :
    c.jobs.validate = .ok () := by
  unfold validate at h
  split at h
  · cases h
  · rename_i valid
    exact valid

/-- What a loader gives is valid, whatever it is loaded from. -/
theorem Loader.validate_of_load {l : Loader} {src : Sources} {c : AppConfig}
    (h : l.load src = .ok c) : c.jobs.validate = .ok () := by
  unfold load at h
  split at h
  · cases h
  · rename_i loaded _
    cases hvalid : validate loaded with
    | error e => rw [hvalid] at h; cases h
    | ok _ =>
      rw [hvalid] at h
      cases h
      exact validate_jobs hvalid

/-- The ticks of a sweeper take a pause between them. -/
theorem Session.exists_sweep_eq_ok {interval : Nat} (pause : interval ≠ 0) (ms : Nat) (w : World) :
    ∃ w', Session.sweep interval ms w = .ok w' :=
  ⟨_, if_neg pause⟩

namespace Stage

/-- Whoever works does the simulated workloads of a configuration. -/
def Simulated (config : JobsConfig) (events : List Event) : Prop :=
  ∀ i exec, .turn (.work i exec) ∈ events → exec = Service.simulatedExecutor config

/-- A simulated workload does not panic. -/
theorem Simulated.not_panicked {config : JobsConfig} {events : List Event}
    (h : Simulated config events) (origin : Stage) (i : Nat) : ¬ origin.Panicked events i := by
  rintro ⟨before, exec, job, log, s, t, earlier, -, -, -, panics⟩
  obtain rfl := h i exec (earlier.subset (List.mem_append_right _ List.mem_cons_self))
  simp only [Service.simulatedExecutor, Executor.simulated] at panics
  cases panics

end Stage

namespace JobsConfig

/-- A caller has validated the configuration, or a loader gives it. -/
def Accepted (config : JobsConfig) : Prop :=
  config.validate = .ok () ∨
    ∃ (l : Loader) (src : Sources) (c : AppConfig), l.load src = .ok c ∧ c.jobs = config

theorem Accepted.validate {config : JobsConfig} (h : config.Accepted) :
    config.validate = .ok () := by
  rcases h with valid | ⟨l, src, c, loaded, rfl⟩
  · exact valid
  · exact Loader.validate_of_load loaded

/-- What it is to run with a configuration.

  * `starts` — a service is built of it, with any workloads, and starts: its queue is empty and has
    the given capacity, there are as many workers as configured, at least one, and a sweeper.
  * `sweeps` — the sweeper can pause between its sweeps.
  * `lives`  — with the simulated workloads no worker dies, whatever happens. -/
structure Runs (config : JobsConfig) : Prop where
  starts : ∀ exec, ∃ service started, Service.withExecutor config exec = .ok service ∧
    service.queueStats = ⟨config.queue.capacity, 0, true⟩ ∧
    service.start = .ok started ∧ started.isReady = true ∧
    started.timeline.workers =
      (List.range config.worker.concurrency.toNat).map (Task.spawn · .workers) ∧
    started.timeline.workers ≠ [] ∧
    started.timeline.sweepers = [.spawn .sweeper config.sweeper.intervalMs.toNat 0]
  sweeps : ∀ ms w, ∃ w', Session.sweep config.sweeper.intervalMs.toNat ms w = .ok w'
  lives : ∀ service, Service.new config = .ok service → ∀ events log e,
    Stage.Simulated config events →
    Stage.live Stage.anyhow events [] (Stage.fresh service) = some (log, e) →
      ∀ t ∈ e.tasks, t.worker ≠ .died

theorem runs_of_le {config : JobsConfig} (valid : config.validate = .ok ())
    (fits : config.queue.capacity.toNat ≤ Queue.maxCapacity) : config.Runs := by
  obtain ⟨-, concurrency, interval⟩ := validate_eq_ok_iff.1 valid
  refine ⟨fun exec => ?_, Session.exists_sweep_eq_ok ?_, ?_⟩
  · obtain ⟨started, hstart, ready, workers, sweepers⟩ := Service.start_ofConfig config exec
    refine ⟨_, started, Service.withExecutor_eq_ok_iff.2 ⟨valid, fits, rfl⟩, ?_, hstart, ready,
      workers, ?_, sweepers⟩
    · simp [Service.queueStats, Service.pipeline, Service.world, Service.ofConfig,
        Timeline.ofWorld, World.initial, Pipeline.empty, Queue.ofCapacity, Queue.stats,
        Queue.length]
    · rw [workers, Ne, List.map_eq_nil_iff, List.range_eq_nil]
      rwa [Ne, ← UInt64.toNat_inj] at concurrency
  · rwa [Ne, ← UInt64.toNat_inj] at interval
  · intro service built events log e simulated run t ht died
    obtain ⟨i, ht⟩ := List.mem_iff_getElem?.1 ht
    have watched := Stage.watched_of_live built run
    exact simulated.not_panicked _ i (watched.bereaved i t ht (.inl died))

/-- **A configuration that is accepted runs, but for the capacity of its queue.** It is valid, and
it runs exactly if the capacity is one that a queue can have. If not, nobody can build a service of
it, with whatever workloads. -/
theorem accepted_configuration_runs {config : JobsConfig} (accepted : config.Accepted) :
    config.validate = .ok () ∧
    (config.Runs ↔ config.queue.capacity.toNat ≤ Queue.maxCapacity) ∧
    (Queue.maxCapacity < config.queue.capacity.toNat →
      ∀ exec, Service.withExecutor config exec = .error (.queue .tooLarge)) := by
  have valid := accepted.validate
  refine ⟨valid, ⟨fun runs => ?_, runs_of_le valid⟩, Service.withExecutor_of_large valid⟩
  obtain ⟨_, _, built, -⟩ := runs.starts (Service.simulatedExecutor config)
  exact (Service.withExecutor_eq_ok_iff.1 built).2.1

/-! ## A queue that is too large -/

/-- A configuration with a queue just above what a queue can be. -/
def oversized : JobsConfig := { queue := { capacity := 2305843009213693952 } }

/-- What is loaded from nothing runs, and the oversized queue, which is valid, does not. -/
theorem default_configuration_runs :
    ({} : JobsConfig).Accepted ∧ ({} : JobsConfig).Runs ∧
    oversized.Accepted ∧ ¬ oversized.Runs ∧ Queue.maxCapacity < oversized.queue.capacity.toNat ∧
    Service.new oversized = .error (.queue .tooLarge) := by
  have accepted : ({} : JobsConfig).Accepted :=
    .inr ⟨{}, ⟨[], none, []⟩, {}, by decide +kernel, rfl⟩
  have large : Queue.maxCapacity < oversized.queue.capacity.toNat := by decide
  obtain ⟨-, runs, -⟩ := accepted_configuration_runs accepted
  have valid : oversized.Accepted := .inl rfl
  obtain ⟨-, fits, fails⟩ := accepted_configuration_runs valid
  exact ⟨accepted, runs.2 (by decide), valid, fun h => absurd (fits.1 h) (by decide), large,
    fails large _⟩

/-- A variable of the environment sets the capacity of the queue to what no queue can have. The
configuration is accepted, and building a service of it takes the caller down. -/
theorem oversized_queue_is_valid :
    ({} : Loader).load ⟨[], none, [("CONVEYOR_JOBS__QUEUE__CAPACITY", "2305843009213693952")]⟩ =
      .ok { jobs := oversized } ∧
    oversized.validate = .ok () ∧ Service.new oversized = .error (.queue .tooLarge) :=
  ⟨by decide +kernel, rfl, rfl⟩

end JobsConfig
end JobPipeline
