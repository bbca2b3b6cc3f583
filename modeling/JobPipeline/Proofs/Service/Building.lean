import JobPipeline.Service.Basic
import Mathlib

/-!
# Building and starting a service

A service is built of a configuration that validates and whose queue can be made
(`Service.withExecutor_eq_ok_iff`). These are two conditions: validation turns away the capacity
zero, but none that is too large. Once it is built, a service starts (`Service.start_ofConfig`).
-/

namespace JobPipeline

theorem JobsConfig.validate_eq_ok_iff {c : JobsConfig} : c.validate = .ok () ↔
    c.queue.capacity ≠ 0 ∧ c.worker.concurrency ≠ 0 ∧ c.sweeper.intervalMs ≠ 0 := by
  unfold validate
  split_ifs <;> simp_all

/-- A service is built of a configuration that is valid and whose queue can be made. -/
theorem Service.withExecutor_eq_ok_iff {config : JobsConfig} {exec : Executor} {s : Service} :
    withExecutor config exec = .ok s ↔ config.validate = .ok () ∧
      config.queue.capacity.toNat ≤ Queue.maxCapacity ∧ s = .ofConfig config exec := by
  unfold withExecutor
  cases valid : config.validate with
  | error e => simp
  | ok _ =>
    have pos : config.queue.capacity.toNat ≠ 0 := by
      have := (JobsConfig.validate_eq_ok_iff.1 valid).1
      rwa [Ne, ← UInt64.toNat_inj] at this
    simp only [Queue.new?, if_neg pos, true_and]
    split_ifs with large
    · simp [large]
    · simp [Nat.le_of_not_lt large, eq_comm]

/-- What a start that succeeds adds. -/
theorem Service.start_eq {s s' : Service} (h : s.start = .ok s') :
    s'.config = s.config ∧ s'.world = s.world ∧
      ∃ handles, s'.handles = some handles ∧
        handles.workers = (List.range s.config.worker.concurrency.toNat).map
          (s.timeline.workers.length + ·) ∧
        s'.timeline.workers = s.timeline.workers ++ handles.workers.map (Task.spawn · .workers) := by
  unfold start at h
  split at h
  · cases h
  · split at h
    · cases h
    · cases h; exact ⟨rfl, rfl, _, rfl, rfl, rfl⟩

/-- A capacity that is too large takes the caller down. -/
theorem Service.withExecutor_of_large {config : JobsConfig} (valid : config.validate = .ok ())
    (large : Queue.maxCapacity < config.queue.capacity.toNat) (exec : Executor) :
    withExecutor config exec = .error (.queue .tooLarge) := by
  have pos : config.queue.capacity.toNat ≠ 0 := by omega
  simp [withExecutor, valid, Queue.new?, pos, large]

/-- A service that nobody has started yet starts, with as many workers as configured. -/
theorem Service.start_ofConfig (config : JobsConfig) (exec : Executor) :
    ∃ s, (ofConfig config exec).start = .ok s ∧ s.isReady = true ∧
      s.timeline.workers =
        (List.range config.worker.concurrency.toNat).map (Task.spawn · .workers) ∧
      s.timeline.sweepers = [.spawn .sweeper config.sweeper.intervalMs.toNat 0] := by
  refine ⟨_, rfl, rfl, ?_, rfl⟩
  simp [ofConfig, Timeline.ofWorld]

end JobPipeline
