import JobPipeline.Proofs.Service.Floor
import JobPipeline.Proofs.Sweeper.Run

/-!
# A worker that has been told to stop

A worker looks at its stop signal before it takes an id and before it starts a workload. It does not
look at it before it claims. So an id that was in its hands when the signal fired is still claimed
(`claim_after_cancellation`), and the job is left processing: the workload does not start, and
nothing is reported.

That is all a worker can still take. From the firing on it goes home in at most five moves, none of
which starts a workload or waits for one, and only the first of them can move a job into processing,
which is the job whose id it held (`cancelled_worker_goes_home`).
-/

namespace JobPipeline

/-- Between the two stores the job with the given id has been moved into processing. -/
def Store.Seizes (s s' : Store) (id : JobId) : Prop :=
  s.status? id ≠ some .processing ∧ s'.status? id = some .processing

namespace Worker

/-- A move of a worker that has been told to stop. -/
inductive Quits (p : Pipeline) : Worker → Worker → Pipeline → Prop
  | quit : Quits p .looking .stopped p
  | desert (r : ReceiverId) : Quits p .waiting .stopped { p with queue := p.queue.abandon r }
  | handle {h h' : Handling} {p' : Pipeline} (proceeds : h.Proceeds true p h' p') :
      Quits p (.handling h) (.handling h') p'
  | leave : Quits p (.handling (.done .aborted)) .stopped p
  | next {outcome : Outcome} (kept : outcome ≠ .aborted) :
      Quits p (.handling (.done outcome)) .looking p

/-- The moves a worker that has been told to stop has before it, at most. -/
def movesLeft : Worker → Nat
  | .looking => 1
  | .waiting => 1
  | .handling (.claiming _) => 4
  | .handling (.claimed _) => 3
  | .handling (.ready _) => 2
  | .handling (.working _) => 2
  | .handling (.reporting _ _) => 5
  | .handling (.succeeded _) => 3
  | .handling (.failed _ .retry) => 4
  | .handling (.failed _ .exhausted) => 3
  | .handling (.requeueing _) => 3
  | .handling (.done .aborted) => 1
  | .handling (.done _) => 2
  | .stopped => 0
  | .died => 0

theorem movesLeft_le (w : Worker) : w.movesLeft ≤ 5 := by
  unfold movesLeft
  split <;> omega

namespace Quits

variable {p p' : Pipeline} {w w' : Worker}

theorem movesLeft_lt (quits : w.Quits p w' p') : w'.movesLeft < w.movesLeft := by
  cases quits with
  | handle proceeds =>
    cases proceeds with
    | @report job old same found processing result =>
      cases result with
      | success => simp [Handling.afterReport, movesLeft]
      | failure reason => cases hv : old.verdict <;> simp [Handling.afterReport, movesLeft, hv]
    | start _ running => cases running
    | _ => simp [movesLeft]
  | @next outcome kept =>
    cases outcome with
    | aborted => exact absurd rfl kept
    | _ => simp [movesLeft]
  | _ => simp [movesLeft]

/-- A worker that has been told to stop gets hold of no further id. -/
theorem ne_claiming (quits : w.Quits p w' p') (id : JobId) : w' ≠ .handling (.claiming id) := by
  cases quits with
  | handle proceeds =>
    cases proceeds with
    | @report job old _ _ _ result => cases result <;> simp [Handling.afterReport]
    | _ => simp
  | _ => simp

/-- **What a move takes.** -/
theorem seizes_iff (quits : w.Quits p w' p') (id : JobId) : p.store.Seizes p'.store id ↔
    w = .handling (.claiming id) ∧ p.store.status? id = some .pending := by
  have nothing (h : p'.store = p.store) (other : ∀ id, w ≠ .handling (.claiming id)) :
      p.store.Seizes p'.store id ↔
        w = .handling (.claiming id) ∧ p.store.status? id = some .pending := by
    rw [h]
    exact ⟨fun seizes => absurd seizes.2 seizes.1, fun held => absurd held.1 (other id)⟩
  cases quits with
  | handle proceeds =>
    cases proceeds with
    | @claim old found pending =>
      by_cases hid : id = old.id
      · subst hid
        have before : p.store.status? old.id = some .pending := by
          rw [Store.status?, found, Option.map_some, pending]
        have after : (p.store.set old.id old.started).status? old.id = some .processing := by
          rw [Store.status?, Store.get?_set_self (Job.id_started old) found]; rfl
        refine ⟨fun _ => ⟨rfl, before⟩, fun _ => ⟨?_, after⟩⟩
        simp [before]
      · constructor
        · rintro ⟨before, after⟩
          rw [Store.status?_set_of_ne (Job.id_started old) hid] at after
          exact absurd after before
        · rintro ⟨held, -⟩
          cases held
          exact absurd rfl hid
    | @skip id' unclaimable =>
      constructor
      · rintro ⟨before, after⟩; exact absurd after before
      · rintro ⟨held, pending⟩
        cases held
        obtain ⟨job, hget, hstatus⟩ := Store.status?_eq_some_iff.1 pending
        exact absurd hstatus (unclaimable job hget)
    | @report job old same found processing result =>
      refine ⟨?_, fun held => by cases held.1⟩
      rintro ⟨before, after⟩
      by_cases hid : id = old.id
      · subst hid
        rw [Store.status?, found, Option.map_some, processing] at before
        exact absurd rfl before
      · rw [Store.status?_set_of_ne (Job.id_reported result old) hid] at after
        exact absurd after before
    | _ => exact nothing rfl (by simp)
  | _ => exact nothing rfl (by simp)

end Quits
end Worker

namespace Task

variable {exec : Executor} {t t' u u' : Task} {w w' v v' : World}

/-- **The moves of a task whose stop signal has fired.** -/
theorem quits_of_step (fired : w.isFired t.stop = true) (hs : t.step exec w = some (t', w')) :
    t.worker.Quits w.pipeline t'.worker w'.pipeline ∧ t'.stop = t.stop ∧ w'.fired = w.fired := by
  have told (untold : w.isFired t.stop = false) : False := by simp [fired] at untold
  cases moves_of_step hs with
  | quit looking => rw [looking]; exact ⟨.quit, rfl, rfl⟩
  | desert waiting => rw [waiting]; exact ⟨.desert t.receiver, rfl, rfl⟩
  | handle busy step =>
    rw [fired] at step
    rw [busy]
    exact ⟨.handle (Handling.proceeds_of_step step), rfl, rfl⟩
  | leave aborted => rw [aborted]; exact ⟨.leave, rfl, rfl⟩
  | next kept done => rw [done]; exact ⟨.next kept, rfl, rfl⟩
  | look _ untold => exact (told untold).elim
  | serve _ untold => exact (told untold).elim
  | begin _ untold => exact (told untold).elim
  | rush _ untold => exact (told untold).elim
  | conclude _ untold => exact (told untold).elim

/-- A task that has been told to stop asks no workload. -/
theorem step_congr_of_fired (fired : w.isFired t.stop = true) (exec exec' : Executor) :
    t.step exec w = t.step exec' w := by
  obtain ⟨r, stop, worker, due, once⟩ := t
  have hfired : w.isFired stop = true := fired
  cases worker with
  | handling h => cases h <;> simp only [step, hfired, if_true]
  | _ => simp only [step, hfired, if_true]

/-- A task that has been told to stop waits for nothing. -/
theorem step_eq_none_iff (fired : w.isFired t.stop = true) :
    t.step exec w = none ↔ t.ended = true := by
  obtain ⟨r, stop, worker, due, once⟩ := t
  have hfired : w.isFired stop = true := fired
  cases worker with
  | handling h =>
    by_cases done : ∃ outcome, h = .done outcome
    · obtain ⟨outcome, rfl⟩ := done
      cases once <;> simp [step, ended, Worker.ended]
    · have goes := Handling.isSome_step (fun outcome h => done ⟨outcome, h⟩) (.inl rfl) w.pipeline
      cases h <;> simp_all [step, ended, Worker.ended, Option.isSome_iff_ne_none]
  | _ => simp [step, hfired, ended, Worker.ended]

/-- A run of a task that has been told to stop, with the stores before and after each of its own
moves. Between them the others do what they like; the signal stays fired. -/
inductive Winds (t : Task) (w : World) : List (Store × Store) → Task → World → Prop
  | refl : Winds t w [] t w
  | move {moves : List (Store × Store)} {u u' : Task} {v v' : World} (exec : Executor)
      (run : Winds t w moves u v) (step : u.step exec v = some (u', v')) :
      Winds t w (moves ++ [(v.pipeline.store, v'.pipeline.store)]) u' v'
  | others {moves : List (Store × Store)} {u : Task} {v : World} (run : Winds t w moves u v)
      (v' : World) (fired : v'.isFired u.stop = true) : Winds t w moves u v'

namespace Winds

variable {moves : List (Store × Store)}

/-- The worker holds no id before it claims it but the one it held at the start, and has no more
moves left than it had. -/
theorem keeps (run : t.Winds w moves u v) (fired : w.isFired t.stop = true) :
    v.isFired u.stop = true ∧ moves.length + u.worker.movesLeft ≤ t.worker.movesLeft ∧
      ((moves = [] ∧ u = t) ∨ (moves ≠ [] ∧ ∀ id, u.worker ≠ .handling (.claiming id))) := by
  induction run with
  | refl => exact ⟨fired, by simp, .inl ⟨rfl, rfl⟩⟩
  | @move moves u u' v v' _ run step ih =>
    obtain ⟨hfired, hleft, -⟩ := ih
    obtain ⟨quits, hstop, hsame⟩ := quits_of_step hfired step
    have hlt := quits.movesLeft_lt
    refine ⟨?_, ?_, .inr ⟨by simp, quits.ne_claiming⟩⟩
    · rw [World.isFired, hstop, hsame]; exact hfired
    · rw [List.length_append, List.length_singleton]; omega
  | others run v' hfired ih => exact ⟨hfired, ih.2⟩

/-- **Only the first move takes a job**, and only the one in the worker's hands. -/
theorem seizes (run : t.Winds w moves u v) (fired : w.isFired t.stop = true) {k : Nat}
    {s s' : Store} (hk : moves[k]? = some (s, s')) {id : JobId} (seizes : s.Seizes s' id) :
    k = 0 ∧ t.worker = .handling (.claiming id) := by
  induction run with
  | refl => cases hk
  | @move moves u u' v v' _ run step ih =>
    obtain ⟨hfired, -, hheld⟩ := run.keeps fired
    by_cases hlt : k < moves.length
    · rw [List.getElem?_append_left hlt] at hk
      exact ih hk
    · rw [List.getElem?_append_right (Nat.le_of_not_lt hlt)] at hk
      have hzero : k - moves.length = 0 := by
        have := (List.getElem?_eq_some_iff.1 hk).1
        rw [List.length_singleton] at this
        omega
      rw [hzero] at hk
      cases hk
      have held := (((quits_of_step hfired step).1.seizes_iff id).1 seizes).1
      rcases hheld with ⟨rfl, rfl⟩ | ⟨-, free⟩
      · exact ⟨by simpa using hzero, held⟩
      · exact absurd held (free id)
  | others _ _ _ ih => exact ih hk

end Winds

/-! ## One id -/

/-- Moves of the task that nobody else interferes with. -/
def next (exec : Executor) (x : Task × World) : Option (Task × World) := x.1.step exec x.2

/-- An id that cannot be claimed is put aside. -/
theorem iterate_single_of_not_claimable {stop : Token} {id : JobId} (fuel : Nat)
    (unclaimable : w.pipeline.store.claim id = none) :
    iterate (next exec) (fuel + 3) (single stop id, w) =
      ((single stop id).goto (.handling (.done .notClaimable)), w) := by
  have skip : next exec (single stop id, w) =
      some ((single stop id).goto (.handling (.done .notClaimable)), w) := by
    simp only [next, step, single, Handling.step, unclaimable]
    rfl
  rw [iterate_succ skip, iterate_of_none rfl]

/-- A job that can be claimed is, if the signal has fired or not; the workload does not start then,
and the job is left as it was claimed. -/
theorem iterate_single_of_claimable {stop : Token} {id : JobId} {job : Job} {store : Store}
    (fuel : Nat) (fired : w.isFired stop = true)
    (claimed : w.pipeline.store.claim id = some (job, store)) :
    iterate (next exec) (fuel + 3) (single stop id, w) =
      ((single stop id).goto (.handling (.done .aborted)),
        { w with pipeline := ⟨store, w.pipeline.queue, w.pipeline.ledger.record .claimed⟩ }) := by
  have claim : next exec (single stop id, w) =
      some ((single stop id).goto (.handling (.claimed job)),
        { w with pipeline := { w.pipeline with store } }) := by
    simp only [next, step, single, Handling.step, claimed]
    rfl
  have count : next exec ((single stop id).goto (.handling (.claimed job)),
        { w with pipeline := { w.pipeline with store } }) =
      some ((single stop id).goto (.handling (.ready job)),
        { w with
          pipeline := ⟨store, w.pipeline.queue, w.pipeline.ledger.record .claimed⟩ }) := rfl
  have forgo : next exec ((single stop id).goto (.handling (.ready job)),
        { w with
          pipeline := ⟨store, w.pipeline.queue, w.pipeline.ledger.record .claimed⟩ }) =
      some ((single stop id).goto (.handling (.done .aborted)),
        { w with
          pipeline := ⟨store, w.pipeline.queue, w.pipeline.ledger.record .claimed⟩ }) := by
    have hfired : World.isFired { w with
        pipeline := ⟨store, w.pipeline.queue, w.pipeline.ledger.record .claimed⟩ } stop = true :=
      fired
    simp only [next, step, single, goto, hfired, if_true]
  rw [iterate_succ claim, iterate_succ count, iterate_succ forgo, iterate_of_none rfl]

/-- **A worker whose stop signal has fired goes home.** Whatever the others do meanwhile, it makes
at most five more moves, it never waits, and it asks no workload. Of these moves only the first can
move a job into processing, and does so only with the id that the worker had in its hands when the
signal fired.

Called for one id with the signal fired, and left alone, a worker changes nothing if the job is not
pending. If it is, the worker claims it and counts it as in progress, and then gives it up: the job
is processing from then on, nobody has worked on it, and the queue is as it was. -/
theorem cancelled_worker_goes_home {t : Task} {w : World} (fired : w.isFired t.stop = true) :
    (∀ moves u v, t.Winds w moves u v →
      (∀ (k : Nat) s s' id, moves[k]? = some (s, s') → s.Seizes s' id →
        k = 0 ∧ t.worker = .handling (.claiming id)) ∧
      moves.length ≤ 5 ∧ (∀ exec, u.step exec v = none ↔ u.ended = true) ∧
      ∀ exec exec', u.step exec v = u.step exec' v) ∧
    ∀ exec id fuel,
      (w.pipeline.store.status? id ≠ some .pending →
        iterate (next exec) (fuel + 3) (single t.stop id, w) =
          ((single t.stop id).goto (.handling (.done .notClaimable)), w)) ∧
      ∀ old, w.pipeline.store.get? id = some old → old.status = .pending →
        iterate (next exec) (fuel + 3) (single t.stop id, w) =
          ((single t.stop id).goto (.handling (.done .aborted)), { w with
            pipeline := ⟨w.pipeline.store.set id old.started, w.pipeline.queue,
              w.pipeline.ledger.record .claimed⟩ }) := by
  constructor
  · intro moves u v run
    obtain ⟨hfired, hleft, -⟩ := run.keeps fired
    have hle := t.worker.movesLeft_le
    refine ⟨?_, by omega, fun _ => step_eq_none_iff hfired, step_congr_of_fired hfired⟩
    intro k s s' id hk seizes
    exact run.seizes fired hk seizes
  · intro exec id fuel
    constructor
    · intro notPending
      refine iterate_single_of_not_claimable fuel (Store.claim_eq_none_iff.2 ?_)
      intro job hget hstatus
      exact notPending (Store.status?_eq_some_iff.2 ⟨job, hget, hstatus⟩)
    · intro old hget pending
      exact iterate_single_of_claimable fuel fired
        (Store.claim_eq_some_iff.2 ⟨old, hget, pending, rfl, rfl⟩)

/-! ## The id in the worker's hands -/

/-- A pending job, and a stop signal that has fired. -/
def cancelledWorld : World :=
  { World.initial 4 with
    pipeline := { Pipeline.empty 4 with
      store := ⟨[⟨0, ⟨⟨"a"⟩, "email_send", .pending, [], 0, 3, none, ⟨0, 0⟩⟩⟩], 1⟩ }
    fired := [.named "main"] }

/-- A worker that was handed the id before the signal fired. -/
def holdingId : Task :=
  { Task.spawn 0 (.named "main") with worker := .handling (.claiming ⟨"a"⟩) }

theorem isFired_holdingId : cancelledWorld.isFired holdingId.stop = true := rfl

/-- The worker claims the job, counts it, gives it up and stops. -/
theorem holdingId_winds : ∃ moves u v, holdingId.Winds cancelledWorld moves u v ∧
    moves.length = 4 ∧ (∃ s s', moves[0]? = some (s, s') ∧ s.Seizes s' ⟨"a"⟩) ∧
    u.worker = .stopped ∧ v.pipeline.store.status? ⟨"a"⟩ = some .processing := by
  let exec : Executor := .simulated 0 "always_fail"
  have run : holdingId.Winds cancelledWorld _ _ _ :=
    .move exec (.move exec (.move exec (.move exec .refl rfl) rfl) rfl) rfl
  exact ⟨_, _, _, run, rfl, ⟨_, _, rfl, by decide, by decide⟩, rfl, by decide⟩

theorem cancelled_worker_with_an_id : ∃ moves u v, cancelledWorld.isFired holdingId.stop = true ∧
    holdingId.Winds cancelledWorld moves u v ∧ moves.length = 4 ∧
    (∀ (k : Nat) s s' id, moves[k]? = some (s, s') → s.Seizes s' id → k = 0) ∧
    ∀ exec, (iterate (next exec) 3 (single holdingId.stop ⟨"b"⟩, cancelledWorld)).2 =
      cancelledWorld := by
  obtain ⟨moves, u, v, run, length, -⟩ := holdingId_winds
  obtain ⟨home, alone⟩ := cancelled_worker_goes_home isFired_holdingId
  refine ⟨moves, u, v, isFired_holdingId, run, length, ?_, fun exec => ?_⟩
  · intro k s s' id hk seizes
    exact ((home moves u v run).1 k s s' id hk seizes).1
  · rw [(alone exec ⟨"b"⟩ 0).1 (by decide)]

/-- A stop signal that has fired does not keep a worker from a claim, neither one that has an id in
its hands nor one that is called for an id. The job is left processing and counted as in progress,
with its workload not started. -/
theorem claim_after_cancellation :
    cancelledWorld.isFired holdingId.stop = true ∧
      (∃ moves u v, holdingId.Winds cancelledWorld moves u v ∧
        (∃ s s', moves[0]? = some (s, s') ∧ s.Seizes s' ⟨"a"⟩) ∧ u.worker = .stopped) ∧
      ∃ u v, iterate (next (.simulated 0 "always_fail")) 3
          (single holdingId.stop ⟨"a"⟩, cancelledWorld) = (u, v) ∧
        u.worker = .handling (.done .aborted) ∧
        v.pipeline.store.status? ⟨"a"⟩ = some .processing ∧ v.pipeline.ledger.inProgress = 1 ∧
        v.pipeline ≠ cancelledWorld.pipeline := by
  obtain ⟨moves, u, v, run, -, seizes, stopped, -⟩ := holdingId_winds
  exact ⟨rfl, ⟨moves, u, v, run, seizes, stopped⟩, _, _, rfl, rfl, by decide, rfl, by decide⟩

end Task
end JobPipeline
