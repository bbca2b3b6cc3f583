import JobPipeline.Proofs.Service.Overlap
import JobPipeline.Proofs.Service.Tenure

/-!
# Starting a service that is being shut down

A shutdown first refuses creations, then takes the handles of the tasks, and marks the service as
shut down at the very end, when it has waited for the sweeper and for the workers. A start does not
ask whether creations are refused. It is turned away by the handles or by the mark, so it succeeds
in between, where there are neither (`start_within_shutdown`).

The tasks of such a start are nobody's concern: the shutdown waits for those that it took and for no
others, and the service goes on running after it has returned, with workers that have been told to
stop. `starts_around_shutdown` says when that happens: exactly if a start succeeds after the handles
have been taken. If none does, the shutdown leaves nobody behind and no start succeeds ever again.
-/

namespace JobPipeline.Stage

/-- Nobody asks for a second shutdown. -/
def oneShutdown (s : Stage) : Event → Bool
  | .turn .call => s.calls.isEmpty
  | _ => true

section
variable {config : JobsConfig} {exec : Executor} {service : Service} {s s' e : Stage}
variable {log : List Notice}

/-- Calls come by being made, and stay. -/
theorem length_calls_of_step {turn : Turn} (asks : turn ≠ .call) (hs : s.step turn = some s') :
    s'.calls.length = s.calls.length := by
  cases turn with
  | call => exact absurd rfl asks
  | proceed k =>
    obtain ⟨_, _, _, -, -, rfl⟩ := step_proceed_iff.1 hs
    exact List.length_set
  | work i exec => obtain ⟨-, -, -, -, -, -, -, -, calls, -⟩ := step_work hs; rw [calls]
  | sweep i => obtain ⟨-, -, -, -, -, -, -, -, calls, -⟩ := step_sweep hs; rw [calls]
  | request _ now r => cases hs; rfl
  | create k => obtain ⟨-, -, -, -, -, -, -, -, calls, -⟩ := step_create hs; rw [calls]
  | wait ms => cases hs; rfl

theorem Life.length_calls (life : s.Life oneShutdown log e) (start : s.calls.length ≤ 1) :
    e.calls.length ≤ 1 := by
  induction life with
  | refl => exact start
  | @tail log t t' event life plain allows step ih =>
    cases event with
    | look => cases step; exact ih
    | start =>
      simp only [advance] at step
      split at step <;> cases step <;> exact ih
    | turn turn =>
      by_cases asks : turn = .call
      · subst asks
        cases step
        have hnil : t.calls = [] := List.isEmpty_iff.1 allows
        simp [hnil]
      · rw [length_calls_of_step asks step]
        exact ih

/-- The one shutdown has returned. -/
theorem Tenure.all_returned (h : e.Tenure log) (single : e.calls.length ≤ 1)
    (done : .returned ∈ log) : ∀ call ∈ e.calls, call = .returned := by
  intro call hcall
  obtain ⟨i, hi, hcall⟩ := List.mem_iff_getElem.1 hcall
  obtain ⟨j, hj, hreturned⟩ := List.mem_iff_getElem.1 (h.returned.1 done)
  obtain rfl : i = j := by omega
  exact hcall.symm.trans hreturned

end

/-- **Starts around a shutdown.** A service is started at any times before, during and after its one
shutdown.

The answer to a start follows from the log. So in the time between the taking of the handles and the
return of the shutdown one start succeeds. When the shutdown has returned the service is running if
that has happened, and not otherwise; no task is left but those of that start, and these have been
told to stop.

If nobody starts the service while the shutdown is under way, then no start succeeds after it, the
service is not running, and all tasks have ended. -/
theorem starts_around_shutdown {config : JobsConfig} {exec : Executor} {service : Service}
    (built : Service.withExecutor config exec = .ok service) :
    (∀ log e, (fresh service).Life oneShutdown log e →
      (e.startAnswer = if hasTasks log then .error Service.alreadyRunning
        else if .returned ∈ log then .error .cancelled
        else .ok ()) ∧
      e.service.isRunning = hasTasks log ∧
      (.returned ∈ log → ∀ a, e.service.hasEnded a = true ∨
        ∃ handles, e.service.handles = some handles ∧ handles.Has a) ∧
      (.returned ∈ log → ∀ t ∈ e.tasks, e.world.isFired t.stop = true)) ∧
    ∀ log e, (fresh service).Life (fun s event => s.oneShutdown event && s.apart event) log e →
      .returned ∈ log →
        e.startAnswer = .error .cancelled ∧ e.service.isRunning = false ∧
        (∀ t ∈ e.tasks, t.ended = true) ∧ ∀ t ∈ e.sweepers, t.ended = true := by
  constructor
  · intro log e life
    have tenure := life.tenure built
    refine ⟨tenure.startAnswer_eq, tenure.running, fun done a => ?_, fun done t ht => ?_⟩
    · exact tenure.left (tenure.all_returned (life.length_calls (Nat.zero_le _)) done) a
    · rw [tenure.listening t ht]
      exact World.isFired_workers (tenure.marked.2 (tenure.returned.1 done))
  · intro log e life done
    have tenure := life.tenure built
    have single :=
      (life.mono fun _ _ h => (Bool.and_eq_true_iff.1 h).1).length_calls (Nat.zero_le _)
    have gone : e.service.handles = none :=
      life.forgotten built (fun _ _ h => (Bool.and_eq_true_iff.1 h).2) _
        (tenure.returned.1 done) rfl
    have ended := tenure.ended (tenure.all_returned single done) gone
    have idle : e.service.isRunning = false := by rw [Service.isRunning, gone]; rfl
    refine ⟨?_, idle, fun t ht => ?_, fun t ht => ?_⟩
    · rw [tenure.startAnswer_eq, ← tenure.running, idle, if_neg Bool.false_ne_true, if_pos done]
    · obtain ⟨i, hi⟩ := List.mem_iff_getElem?.1 ht
      simpa [hasEnded_worker, hi] using ended (.worker i)
    · obtain ⟨i, hi⟩ := List.mem_iff_getElem?.1 ht
      simpa [hasEnded_sweeper, hi] using ended (.sweeper i)

/-! ## A start within a shutdown -/

theorem smallService_built : Service.withExecutor
    { queue := { capacity := 1 }, worker := { concurrency := 1 } }
    (.simulated 50 "always_fail") = .ok smallService := rfl

/-- A shutdown gets as far as to wait for the sweeper. -/
def awaitingSweeper : List Event :=
  [.start, .turn .call, .turn (.proceed 0), .turn (.proceed 0), .turn (.proceed 0)]

/-- The sweeper and the worker go home, and the shutdown returns. -/
def goingHome : List Event :=
  [.turn (.sweep 0), .turn (.proceed 0), .turn (.proceed 0), .turn workSlowly, .turn (.proceed 0),
    .turn (.proceed 0)]

theorem simulated_plain (latency : Nat) (kind : String) :
    (Executor.simulated latency kind).Plain := fun _ => rfl

theorem no_start_after_shutdown :
    ∃ log e, (fresh smallService).Life (fun s event => s.oneShutdown event && s.apart event) log e ∧
      .returned ∈ log ∧ e.startAnswer = .error .cancelled ∧ e.service.isRunning = false ∧
      ∀ t ∈ e.tasks, t.ended = true := by
  have plain : ∀ event ∈ awaitingSweeper ++ goingHome, event.Plain := by
    simp [awaitingSweeper, goingHome, workSlowly, Event.Plain, simulated_plain]
  have life : (fresh smallService).Life (fun s event => s.oneShutdown event && s.apart event) _ _ :=
    .of_live plain .refl rfl
  have done := (starts_around_shutdown smallService_built).2 _ _ life (by decide)
  exact ⟨_, _, life, by decide, done.1, done.2.1, done.2.2.1⟩

/-- A start succeeds while the shutdown waits for the sweeper. When the shutdown has returned the
service is running, with a worker that has not ended. -/
theorem start_within_shutdown :
    ∃ log m log' e, (fresh smallService).Life oneShutdown log m ∧
      (∃ handles, m.calls = [.awaitingSweeper handles]) ∧ m.service.isAccepting = false ∧
      m.startAnswer = .ok () ∧
      (fresh smallService).Life oneShutdown (log ++ [.started (.ok ())] ++ log') e ∧
      e.calls = [.returned] ∧ e.service.isRunning = true ∧ ∃ t ∈ e.tasks, t.ended = false := by
  have plain : ∀ event ∈ awaitingSweeper ++ .start :: goingHome, event.Plain := by
    simp [awaitingSweeper, goingHome, workSlowly, Event.Plain, simulated_plain]
  have first : (fresh smallService).Life oneShutdown _ _ :=
    .of_live (fun event h => plain event (List.mem_append_left _ h)) .refl rfl
  have second : (fresh smallService).Life oneShutdown _ _ :=
    .of_live (fun event h => plain event (List.mem_append_right _ h)) first rfl
  exact ⟨_, _, [.returned], _, first, ⟨_, rfl⟩, rfl, rfl, second, rfl, rfl, _,
    List.mem_cons_of_mem _ List.mem_cons_self, rfl⟩

end JobPipeline.Stage
