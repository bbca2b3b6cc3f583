import JobPipeline.Proofs.Scene.Executions

/-!
# Workloads that always fail

A job that is granted `m` retries runs at most `m + 1` times, and if it fails every time it runs
exactly so often: a pending job can always be attempted once more (`Scene.exists_attempt`), and the
attempt that uses up the budget leaves it failed (`Scene.exists_exhausted`).

The counter of attempts does not go past its greatest value. So the greatest budget is never used
up: the job stays retryable after each failure, and there is no bound on its executions
(`exists_attempts`, `executions_beyond_budget`).
-/

namespace JobPipeline

/-- Whether the action is lawful and ends no workload of the job but with a failure. -/
def Action.failing (id : JobId) (s : Scene) (action : Action) : Bool :=
  action.lawful s && match action with
    | .act i cue => match s.actors[i]? with
      | some (.handling (.working job)) => job.id ≠ id || cue.ending ≠ .result .success
      | _ => true
    | _ => true

theorem Action.lawful_of_failing {id : JobId} {s : Scene} {action : Action}
    (h : action.failing id s = true) : action.lawful s = true := by
  simp only [failing, Bool.and_eq_true] at h
  exact h.1

namespace Job

/-- The record after one more attempt, in vain. -/
def missed (reason : String) (job : Job) : Job := job.started.reported (.failure reason)

variable (reason : String) (job : Job)

theorem attempts_missed :
    (job.missed reason).attempts.toNat = min (job.attempts.toNat + 1) 4294967295 := by
  rw [missed, attempts_reported]
  exact toNat_saturatingSucc job.attempts

@[simp] theorem maxRetries_missed : (job.missed reason).maxRetries = job.maxRetries :=
  maxRetries_reported _ _

/-- Another attempt follows if the record after this one is within the budget. -/
theorem status_missed : (job.missed reason).status =
    if (job.missed reason).attempts.toNat ≤ job.maxRetries.toNat then .pending else .failed := by
  have hretry : job.started.retryable = true ↔
      (job.missed reason).attempts.toNat ≤ job.maxRetries.toNat := by
    rw [retryable_iff, missed, attempts_reported]; rfl
  split
  · rename_i h
    simp [missed, reported, verdict, hretry.2 h, Verdict.status]
  · rename_i h
    have hspent : job.started.retryable = false := by rwa [← Bool.not_eq_true, hretry]
    simp [missed, reported, verdict, hspent, Verdict.status]

end Job

namespace Scene

/-- No workload of the job has succeeded. -/
structure Unsuccessful (id : JobId) (s : Scene) : Prop where
  unreported : ∀ job, .handling (.reporting job .success) ∈ s.actors → job.id ≠ id
  unfinished : ∀ job, s.store.get? id = some job → job.status ≠ .completed

end Scene

/-- Only the report of a success completes a job. -/
theorem Deed.Effect.completed {d : Deed} {p p' : Pipeline} (h : d.Effect p p')
    (fresh : d.Fresh p.store) {id : JobId} {job' : Job} (hget' : p'.store.get? id = some job')
    (done : job'.status = .completed) :
    (∃ job, p.store.get? id = some job ∧ job.status = .completed) ∨
      ∃ old, d = .report old .success ∧ old.id = id := by
  have stays (hsame : p'.store.get? id = p.store.get? id) :
      ∃ job, p.store.get? id = some job ∧ job.status = .completed :=
    ⟨job', hsame.symm.trans hget', done⟩
  cases d with
  | rest => exact .inl (stays (by rw [h.1]))
  | tell e => exact .inl (stays (by rw [h.1]))
  | claim old =>
    rw [h.2.2.1, Store.get?_set (Job.id_started old)] at hget'
    split at hget'
    · obtain ⟨_, -, rfl⟩ := Option.map_eq_some_iff.1 hget'
      cases done
    · exact .inl ⟨job', hget', done⟩
  | report old result =>
    rw [h.2.2.1, Store.get?_set (Job.id_reported result old)] at hget'
    split at hget'
    · rename_i hid
      obtain ⟨_, -, rfl⟩ := Option.map_eq_some_iff.1 hget'
      cases result with
      | success => exact .inr ⟨old, rfl, hid.symm⟩
      | failure reason =>
        cases hv : old.verdict <;> simp [Job.reported, hv, Verdict.status] at done
    · exact .inl ⟨job', hget', done⟩
  | recover n =>
    rw [h.2.1, Store.get?_swept, Option.map_eq_some_iff] at hget'
    obtain ⟨job, hget, rfl⟩ := hget'
    refine .inl ⟨job, hget, ?_⟩
    unfold Job.swept at done
    split at done
    · cases done
    · exact done
  | create job =>
    rw [Store.get?_create h.1] at hget'
    split at hget'
    · cases hget'
      have := fresh.1
      simp [Job.isNew, done] at this
    · exact .inl ⟨job', hget', done⟩

namespace Scene

variable {id : JobId} {n : Nat} {s s' : Scene}

theorem Unsuccessful.step (h : Unsuccessful id s) {action : Action}
    (failing : action.failing id s = true) (hstep : s.step action = some s') :
    Unsuccessful id s' := by
  cases action with
  | enter a =>
    cases hstep
    refine ⟨fun job hmem => ?_, h.unfinished⟩
    rcases List.mem_append.1 hmem with hmem | hmem
    · exact h.unreported job hmem
    · have new : a.isNewcomer = true := Action.lawful_of_failing failing
      rw [← List.mem_singleton.1 hmem] at new
      cases new
  | offer other => cases hstep; exact ⟨h.unreported, h.unfinished⟩
  | close => cases hstep; exact ⟨h.unreported, h.unfinished⟩
  | act i cue =>
    obtain ⟨a, a', p, ha, hs, rfl⟩ := step_act_iff.1 hstep
    obtain ⟨d, effect, hdoes⟩ := Actor.step_does hs
    refine ⟨fun job hmem => ?_, fun job' hget' done => ?_⟩
    · rcases List.mem_or_eq_of_mem_set hmem with hmem | rfl
      · exact h.unreported job hmem
      · obtain ⟨rfl, hending⟩ := Actor.working_of_reporting hs
        simpa [Action.failing, Action.lawful, ha, hending] using failing
    · rcases effect.completed (fresh_of_lawful (Action.lawful_of_failing failing) ha hdoes) hget'
        done with ⟨job, hget, done⟩ | ⟨old, rfl, hid⟩
      · exact h.unfinished job hget done
      · obtain ⟨mine, rfl, same⟩ := hdoes.reporting
        exact h.unreported mine (List.mem_of_getElem? ha) (same.trans hid)

theorem Executes.unsuccessful {p : Pipeline} (absent : p.store.get? id = none)
    (run : (Scene.of p).Executes (Action.failing id) id n s) : Unsuccessful id s := by
  induction run with
  | refl =>
    refine ⟨fun job hmem => absurd hmem (by simp [Scene.of]), fun job hget => ?_⟩
    exact absurd (hget.symm.trans absent) (by simp)
  | tail _ failing hstep ih => exact ih.step failing hstep

/-- The last of the actors goes on with its id. -/
theorem Executes.last {p p' : Pipeline} {as : List Actor} {h h' : Handling} (cue : Cue)
    (run : s.Executes (Action.failing id) id n ⟨p, as ++ [.handling h]⟩)
    (hs : (Actor.handling h).step as.length cue p = some (.handling h', p'))
    (failing : ∀ job, h = .working job → cue.ending ≠ .result .success) :
    s.Executes (Action.failing id) id
      (n + ((Action.act as.length cue).executes id ⟨p, as ++ [.handling h]⟩).toNat)
      ⟨p', as ++ [.handling h']⟩ := by
  refine run.tail ?_ ?_
  · simp only [Action.failing, Action.lawful, List.getElem?_concat_length, Bool.true_and]
    split
    · rename_i job heq
      cases heq
      simp [failing job rfl]
    · rfl
  · rw [step_act_iff]
    exact ⟨_, _, p', List.getElem?_concat_length, hs, by simp⟩

/-- A pending job can be attempted once more, in vain. -/
theorem exists_attempt {job : Job} (hget : s.store.get? id = some job)
    (pending : job.status = .pending) (reason : String) :
    ∃ s', s.Executes (Action.failing id) id 1 s' ∧
      s'.store.get? id = some (job.missed reason) := by
  obtain rfl := Store.id_of_get? hget
  obtain ⟨p, as⟩ := s
  -- A new worker comes in behind all the others and handles the id from the claim to the report.
  let go : Cue := ⟨false, .panic⟩
  let taken : Pipeline := { p with store := p.store.set job.id job.started }
  have hclaim : p.store.claim job.id = some (job.started, taken.store) :=
    Store.claim_eq_some_iff.2 ⟨job, hget, pending, rfl, rfl⟩
  have hstarted : taken.store.get? job.id = some job.started :=
    Store.get?_set_self (Job.id_started job) hget
  have hreport : taken.store.reportFailure job.id reason = .ok (job.started.verdict,
      taken.store.set job.id (job.missed reason)) :=
    Store.reportFailure_eq_ok_iff.2 ⟨job.started, hstarted, rfl, rfl, rfl⟩
  have entered : Executes (Action.failing job.id) job.id ⟨p, as⟩ 0
      ⟨p, as ++ [.handling (.claiming job.id)]⟩ :=
    .tail (a := .enter (.handling (.claiming job.id))) .refl rfl rfl
  have claimed : Executes (Action.failing job.id) job.id ⟨p, as⟩ 0
      ⟨taken, as ++ [.handling (.claimed job.started)]⟩ := by
    have hs : (Actor.handling (.claiming job.id)).step as.length go p =
        some (.handling (.claimed job.started), taken) := by
      simp [Actor.step, Worker.step, Handling.step, hclaim, taken]
    simpa [Action.executes] using entered.last go hs (by simp)
  have ready : Executes (Action.failing job.id) job.id ⟨p, as⟩ 0
      ⟨taken.record .claimed, as ++ [.handling (.ready job.started)]⟩ := by
    simpa [Action.executes] using claimed.last go rfl (by simp)
  have working : Executes (Action.failing job.id) job.id ⟨p, as⟩ 1
      ⟨taken.record .claimed, as ++ [.handling (.working job.started)]⟩ := by
    simpa [Action.executes, go] using ready.last go rfl (by simp)
  have reporting : Executes (Action.failing job.id) job.id ⟨p, as⟩ 1
      ⟨taken.record .claimed, as ++ [.handling (.reporting job.started (.failure reason))]⟩ := by
    simpa [Action.executes, Handling.finish] using
      working.last ⟨false, .result (.failure reason)⟩ rfl (by simp)
  have hs : (Actor.handling (.reporting job.started (.failure reason))).step as.length go
      (taken.record .claimed) = some (.handling (.failed job.started job.started.verdict),
        { taken.record .claimed with
          store := taken.store.set job.id (job.missed reason) }) := by
    simp [Actor.step, Worker.step, Handling.step, Pipeline.record, hreport]
  refine ⟨_, by simpa [Action.executes] using reporting.last go hs (by simp), ?_⟩
  exact Store.get?_set_self (Job.id_reported _ _) hstarted

/-- A job that always fails runs until its budget is used up; `k` is what is left of it. -/
theorem exists_exhausted {k : Nat} {job : Job} (hget : s.store.get? id = some job)
    (pending : job.status = .pending) (budget : job.Budgeted)
    (left : job.attempts.toNat + k = job.maxRetries.toNat) :
    ∃ s' job', s.Executes (Action.failing id) id (k + 1) s' ∧ s'.store.get? id = some job' ∧
      job'.status = .failed := by
  induction k generalizing s job with
  | zero =>
    obtain ⟨s', run, hget'⟩ := exists_attempt hget pending "no route"
    have hattempts := job.attempts_missed "no route"
    have hlt : job.maxRetries.toNat < 4294967295 := budget
    refine ⟨s', _, run, hget', ?_⟩
    rw [Job.status_missed, if_neg (by omega)]
  | succ k ih =>
    obtain ⟨t, run, hget'⟩ := exists_attempt hget pending "no route"
    have hattempts := job.attempts_missed "no route"
    have hmax := congrArg UInt32.toNat (job.maxRetries_missed "no route")
    have hlt : job.maxRetries.toNat < 4294967295 := budget
    have pending' : (job.missed "no route").status = .pending := by
      rw [Job.status_missed, if_pos (by omega)]
    have budget' : (job.missed "no route").Budgeted := by rw [Job.Budgeted, hmax]; exact hlt
    obtain ⟨s', job', more, hfound, failed⟩ := ih hget' pending' budget' (by omega)
    exact ⟨s', job', by simpa [Nat.add_comm] using run.trans more, hfound, failed⟩

/-- **The budget bounds the executions**, any budget but the greatest. Of a job that is granted `m`
retries the workload runs at most `m + 1` times. The job has failed only after all of them, and then
for good: it is not executed again, and its record stands. If all its workloads fail it never
completes, the last one leaves it failed, and as long as it is pending this is still to come. -/
theorem executions_within_budget {p : Pipeline} {job : Job} (absent : p.store.get? id = none)
    (run : (Scene.of p).Executes Action.lawful id n s) (hget : s.store.get? id = some job)
    (budget : job.Budgeted) :
    n ≤ job.maxRetries.toNat + 1 ∧
      (job.status = .failed → n = job.maxRetries.toNat + 1 ∧
        ∀ k s', s.Executes Action.lawful id k s' → k = 0 ∧ s'.store.get? id = some job) ∧
      ((Scene.of p).Executes (Action.failing id) id n s →
        (job.status ≠ .processing → (job.status = .failed ↔ n = job.maxRetries.toNat + 1)) ∧
          (job.status = .pending → ∃ k s' job', s.Executes (Action.failing id) id k s' ∧
            n + k = job.maxRetries.toNat + 1 ∧ s'.store.get? id = some job' ∧
            job'.status = .failed)) := by
  obtain ⟨within, tally⟩ := run.tally absent
  have within := within job hget
  obtain ⟨hle, hcount⟩ := tally.counted job hget budget
  refine ⟨?_, fun failed => ?_, fun failing => ⟨fun idle => ?_, fun pending => ?_⟩⟩
  · -- at most `m + 1` times
    cases hstatus : job.status with
    | pending => have := within.pending hstatus; omega
    | processing => have := (within.claimed (.inl hstatus)).2; omega
    | completed => have := (within.claimed (.inr hstatus)).2; omega
    | failed => have := (within.failed hstatus).1; omega
  · -- for good
    have hn : n = job.attempts.toNat := hcount (by rw [failed]; decide)
    refine ⟨hn.trans (within.failed failed).1, fun k s' more => ?_⟩
    -- The longer run has the same bound, which the first part of it has used up.
    have hget' := more.final hget within (.inr failed)
    have hn' := ((run.trans more).tally absent).2.counted job hget' budget
    exact ⟨by have := hn'.1; omega, hget'⟩
  · -- in vain, up to here
    have uncompleted := (failing.unsuccessful absent).unfinished job hget
    have hn := hcount idle
    constructor
    · intro failed
      exact hn.trans (within.failed failed).1
    · intro hfull
      cases hstatus : job.status with
      | pending => have := within.pending hstatus; omega
      | processing => exact absurd hstatus idle
      | completed => exact absurd hstatus uncompleted
      | failed => rfl
  · -- in vain, from here on
    have hn : n = job.attempts.toNat := hcount (by rw [pending]; decide)
    have hroom := within.pending pending
    obtain ⟨s', job', more, hget', failed⟩ := exists_exhausted
      (k := job.maxRetries.toNat - job.attempts.toNat) hget pending budget (by omega)
    exact ⟨_, s', job', more, by omega, hget', failed⟩

/-- The job that a service makes of a request for `m` retries. -/
def requested (m : UInt32) : Job :=
  (Service.ofConfig {} (.simulated 0 "always_fail")).jobFor ⟨"a"⟩ ⟨0, 0⟩
    ⟨"always_fail", [], some m⟩

/-- The scene in which the first job has just been stored. -/
def holdingOnly (job : Job) : Scene :=
  ⟨⟨⟨[⟨0, job⟩], 1⟩, .ofCapacity 1, .zero⟩, [.creation (.stored job)]⟩

theorem executes_holdingOnly (m : UInt32) :
    (Scene.of (.empty 1)).Executes (Action.failing ⟨"a"⟩) ⟨"a"⟩ 0 (holdingOnly (requested m)) := by
  have entered : (Scene.of (.empty 1)).Executes (Action.failing ⟨"a"⟩) ⟨"a"⟩ 0
      ⟨.empty 1, [.creation (.storing (requested m))]⟩ :=
    .tail (a := .enter (.creation (.storing (requested m)))) .refl rfl rfl
  exact .tail (a := .go 0) entered rfl rfl

/-- A job without retries that fails is executed once and never again. -/
theorem one_execution_without_retries :
    ∃ s job, (Scene.of (.empty 1)).Executes Action.lawful ⟨"a"⟩ 1 s ∧
      s.store.get? ⟨"a"⟩ = some job ∧ job.maxRetries = 0 ∧ job.status = .failed ∧
      ∀ k s', s.Executes Action.lawful ⟨"a"⟩ k s' → k = 0 := by
  have hget : (holdingOnly (requested 0)).store.get? ⟨"a"⟩ = some (requested 0) := rfl
  obtain ⟨s, more, hget'⟩ := exists_attempt hget rfl "no route"
  have failing := (executes_holdingOnly 0).trans more
  have run := failing.mono fun _ _ => Action.lawful_of_failing
  have budget : ((requested 0).missed "no route").Budgeted := by
    rw [Job.Budgeted, Job.maxRetries_missed]; decide
  obtain ⟨-, final, always⟩ := executions_within_budget (p := .empty 1) rfl run hget' budget
  have idle : ((requested 0).missed "no route").status ≠ .processing := by decide
  have failed := ((always failing).1 idle).2 rfl
  exact ⟨s, _, run, hget', rfl, failed, fun k s' h => ((final failed).2 k s' h).1⟩

/-! ## The greatest budget -/

/-- A job with the greatest budget can be attempted as often as one likes. -/
theorem exists_attempts (k : Nat) {job : Job} (hget : s.store.get? id = some job)
    (pending : job.status = .pending) (greatest : job.maxRetries = 4294967295) :
    ∃ s' job', s.Executes (Action.failing id) id k s' ∧ s'.store.get? id = some job' ∧
      job'.status = .pending ∧ job'.maxRetries = 4294967295 := by
  induction k with
  | zero => exact ⟨s, job, .refl, hget, pending, greatest⟩
  | succ k ih =>
    obtain ⟨t, job', run, hget', pending', greatest'⟩ := ih
    obtain ⟨s', more, hget''⟩ := exists_attempt hget' pending' "no route"
    refine ⟨s', _, run.trans more, hget'', ?_, (job'.maxRetries_missed _).trans greatest'⟩
    have hattempts := job'.attempts_missed "no route"
    have hmax : job'.maxRetries.toNat = 4294967295 := by rw [greatest']; rfl
    rw [Job.status_missed, if_pos (by omega)]

/-- **The greatest budget is no bound.** The counter of attempts stops at its greatest value, which
is within this budget. So a job that is granted `m` retries, `m` the greatest word, and fails every
time is executed once more than `m + 1` times, and is pending again after that. -/
theorem executions_beyond_budget :
    ∃ s job, (Scene.of (.empty 1)).Executes (Action.failing ⟨"a"⟩) ⟨"a"⟩ 4294967297 s ∧
      s.store.get? ⟨"a"⟩ = some job ∧ job.maxRetries = 4294967295 ∧ job.status = .pending ∧
      ¬ 4294967297 ≤ job.maxRetries.toNat + 1 := by
  have hget : (holdingOnly (requested 4294967295)).store.get? ⟨"a"⟩ =
      some (requested 4294967295) := rfl
  obtain ⟨s, job, more, hget', pending, greatest⟩ := exists_attempts 4294967297 hget rfl rfl
  have run := (executes_holdingOnly 4294967295).trans more
  rw [Nat.zero_add] at run
  refine ⟨s, job, run, hget', greatest, pending, ?_⟩
  rw [greatest]
  decide

end Scene
end JobPipeline
