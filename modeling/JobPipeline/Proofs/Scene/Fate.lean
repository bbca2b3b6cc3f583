import JobPipeline.Proofs.Scene.Custody
import JobPipeline.Proofs.Scene.Retries

/-!
# The outcome does not depend on the schedule

Let the workloads give results that depend on the job and the attempt only (`Work`), and let a
service create the jobs of a given collection. Then every record that is ever in the store is
destined: it is what some number of attempts make of the new record (`Scene.Steady`). When all jobs
are through, nothing is left that could tell one order of steps from another: the counters are the
figures of the store, and the counter of retries is a total over its records.
-/

namespace JobPipeline

namespace Job

variable {work : Work} {job : Job}

theorem WithinBudget.attempted (h : job.WithinBudget) : (job.attempted work).WithinBudget := by
  by_cases pending : job.status = .pending
  · rw [attempted_of_pending pending]
    exact (h.started pending).reported rfl _
  · rw [attempted_of_not_pending pending]; exact h

/-- A job on the way to what it is destined to be keeps within its budget. -/
theorem Destined.withinBudget (h : job.Destined work) : job.WithinBudget := by
  have iterate (k : Nat) : ((Job.attempted work)^[k] job.renewed).WithinBudget := by
    induction k with
    | zero => exact .of_isNew rfl
    | succ k ih => rw [Function.iterate_succ_apply']; exact ih.attempted
  obtain ⟨k, hk | ⟨pending, hk⟩⟩ := h
  · rw [hk]; exact iterate k
  · rw [hk]; exact (iterate k).started pending

end Job

/-! ## Collections of jobs -/

section
variable {n : Nat} (exec : Executor) (work : Work)
variable (errands : Fin n → Errand) (names : Fin n → JobId)

/-- What may happen, while the process has room, where the workloads are those of an executor and
what is created are the jobs of a collection, each under its name. -/
def Action.follows (s : Scene) (action : Action) : Bool :=
  action.fitting s && match action with
    | .act i cue => match s.actors[i]? with
      | some (.handling (.working job)) => cue.ending = (exec job).ending
      | some (.creation (.storing job)) =>
        job.lastError = none &&
          (List.finRange n).any fun k => names k = job.id && errands k = job.errand
      | _ => true
    | _ => true

/-- A job of the collection on the way to what it is destined to be. -/
def Job.Expected (job : Job) : Prop :=
  job.Destined work ∧ ∃ k, names k = job.id ∧ errands k = job.errand

namespace Scene

/-- What does not depend on the schedule.

  * `expected` — all records are of the collection and destined.
  * `faithful` — who is about to report has the result that the workload gives.
  * `retried`  — the counter of retries, with those owed, is what the attempts show. -/
structure Steady (s : Scene) : Prop where
  custody : s.Custody
  distinct : s.store.Distinct
  expected : ∀ id job, s.store.get? id = some job → job.Expected work errands names
  faithful : ∀ (i : Nat) (job : Job) (result : WorkResult),
    s.actors[i]? = some (.handling (.reporting job result)) → result = work.on job
  retried : s.RetriesTold

/-- All jobs of the collection have been created, none is waiting or under way, and the ledger has
been told of all. -/
structure Settled (s : Scene) : Prop where
  created : ∀ k, (s.store.get? (names k)).isSome
  pending : s.store.count .pending = 0
  processing : s.store.count .processing = 0
  quiet : s.Quiet

end Scene
end

variable {n : Nat} {exec : Executor} {work : Work}
variable {errands : Fin n → Errand} {names : Fin n → JobId}

theorem Action.fitting_of_follows {s : Scene} {action : Action}
    (h : action.follows exec errands names s = true) :
    action.fitting s = true := (Bool.and_eq_true_iff.1 h).1

theorem Action.lawful_of_follows {s : Scene} {action : Action}
    (h : action.follows exec errands names s = true) :
    action.lawful s = true := (fitting_iff.1 (fitting_of_follows h)).1

theorem Scene.expected_of_follows {s : Scene} {i : Nat} {cue : Cue} {a a' : Actor} {job : Job}
    (follows : Action.follows exec errands names s (.act i cue) = true) (ha : s.actors[i]? = some a)
    (hdoes : a.Does (.create job) a') : job.Expected work errands names := by
  cases hdoes
  have h := follows
  simp only [Action.follows, Action.fitting, Action.lawful, ha, Bool.and_eq_true, decide_eq_true_eq,
    List.any_eq_true] at h
  obtain ⟨⟨⟨hnew, -⟩, -⟩, hclean, k, -, hname, herrand⟩ := h
  exact ⟨Job.destined_of_renewed (Job.renewed_of_isNew hnew hclean), k, hname, herrand⟩

namespace Job.Expected

variable {job : Job}

theorem started (h : job.Expected work errands names) (pending : job.status = .pending) :
    job.started.Expected work errands names := ⟨h.1.started pending, h.2⟩

theorem reported (h : job.Expected work errands names) (processing : job.status = .processing) :
    (job.reported (work.on job)).Expected work errands names := by
  obtain ⟨k, hname, herrand⟩ := h.2
  refine ⟨h.1.reported processing, k, ?_, ?_⟩
  · rw [id_reported, hname]
  · rw [errand_reported, herrand]

end Job.Expected

namespace Scene

theorem Steady.of_empty (capacity : Nat) :
    (Scene.of (.empty capacity)).Steady work errands names where
  custody := Custody.of_pipeline _
  distinct := List.nodup_nil
  expected id job h := by cases h
  faithful i job result h := by simp [Scene.of] at h
  retried := rfl

theorem Steady.act {s s' : Scene} (h : s.Steady work errands names) (gives : exec.Gives work)
    (budget : ∀ k, (errands k).maxRetries.toNat < 4294967295) {i : Nat} {cue : Cue}
    (follows : Action.follows exec errands names s (.act i cue) = true)
    (hstep : s.step (.act i cue) = some s') :
    s'.Steady work errands names := by
  have lawful := Action.lawful_of_follows follows
  have custody := h.custody.step lawful hstep
  obtain ⟨a, a', p, ha, hs, rfl⟩ := step_act_iff.1 hstep
  obtain ⟨d, heffect, hdoes⟩ := Actor.step_does hs
  have fresh := fresh_of_lawful lawful ha hdoes
  -- The report is of the record itself, because the worker holds it.
  have faithful : ∀ old result, d = .report old result → result = work.on old := by
    rintro old result rfl
    obtain ⟨job, rfl, hid⟩ := hdoes.reporting
    have hheld := (h.custody.held i job (holds_of_holding ha rfl)).1
    rw [hid] at hheld
    obtain rfl : job = old := Option.some.inj (hheld.symm.trans heffect.1)
    exact h.faithful i job result ha
  have destined : s.store.All (·.Destined work) := fun id job hget => (h.expected id job hget).1
  have room : s.store.All Job.Budgeted := by
    intro id job hget
    obtain ⟨k, -, herrand⟩ := (h.expected id job hget).2
    have := budget k
    rw [herrand] at this
    exact this
  refine ⟨custody, heffect.distinct h.distinct, ?_, ?_, ?_⟩
  · -- expected
    have calm : s.store.All (·.lapsed = false) := by
      intro id job hget
      exact (destined id job hget).withinBudget.not_lapsed
    refine heffect.records h.expected calm ?_ ?_ ?_
    · intro old _ hold pending
      exact hold.started pending
    · intro old result hd hold processing
      rw [faithful old result hd]
      exact hold.reported processing
    · rintro job rfl
      exact expected_of_follows follows ha hdoes
  · -- faithful
    intro j job result hj
    rcases getElem?_set_cases hj with ⟨rfl, rfl⟩ | ⟨-, hj⟩
    · obtain ⟨rfl, hending⟩ := Actor.working_of_reporting hs
      simp only [Action.follows, ha, Bool.and_eq_true, decide_eq_true_eq, hending, gives job,
        Ending.result.injEq] at follows
      exact follows.2
    · exact h.faithful j job result hj
  · -- retried
    exact RetriesTold.deed h.retried ha hdoes heffect fresh h.distinct
      (fun id job hget => (destined id job hget).withinBudget) room

theorem Steady.of_reaches {capacity : Nat} {s : Scene} (gives : exec.Gives work)
    (budget : ∀ k, (errands k).maxRetries.toNat < 4294967295)
    (run : (Scene.of (.empty capacity)).Reaches (Action.follows exec errands names) s) :
    s.Steady work errands names := by
  refine run.invariant ?_ (Steady.of_empty capacity)
  intro s action s' h follows hstep
  have lawful := Action.lawful_of_follows follows
  have custody := h.custody.step lawful hstep
  cases action with
  | act i cue => exact h.act gives budget follows hstep
  | offer id => cases hstep; exact ⟨custody, h.distinct, h.expected, h.faithful, h.retried⟩
  | close => cases hstep; exact ⟨custody, h.distinct, h.expected, h.faithful, h.retried⟩
  | enter a =>
    cases hstep
    obtain ⟨howed, hne⟩ : a.owed = [] ∧ ∀ job result, a ≠ .handling (.reporting job result) := by
      rcases Actor.newcomer_cases lawful with rfl | ⟨id, rfl⟩ | rfl | ⟨job, rfl⟩ <;>
        exact ⟨rfl, nofun⟩
    refine ⟨custody, h.distinct, h.expected, ?_, ?_⟩
    · intro i job result hi
      rcases getElem?_concat_cases hi with hi | heq
      · exact h.faithful i job result hi
      · exact absurd heq.symm (hne job result)
    · exact RetriesTold.enter h.retried howed

/-! ## Two runs -/

theorem Settled.of_get? {s : Scene} (settled : s.Settled names) {id : JobId} {job : Job}
    (hget : s.store.get? id = some job) : job.Settled := by
  obtain ⟨e, he, rfl⟩ := Store.mem_of_get? hget
  have hpending := List.countP_eq_zero.1 settled.pending e he
  have hprocessing := List.countP_eq_zero.1 settled.processing e he
  exact ⟨by simpa using hpending, by simpa using hprocessing⟩

section
variable {s : Scene} (steady : s.Steady work errands names) (settled : s.Settled names)
include steady settled

/-- In the end there is a record for every job of the collection. -/
theorem Settled.record (inj : Function.Injective names) (k : Fin n) :
    ∃ job, s.store.get? (names k) = some job ∧ job.Destined work ∧ job.Settled ∧
      errands k = job.errand := by
  obtain ⟨job, hget⟩ := Option.isSome_iff_exists.1 (settled.created k)
  obtain ⟨destined, l, hname, herrand⟩ := steady.expected _ job hget
  obtain rfl : l = k := inj (hname.trans (Store.id_of_get? hget))
  exact ⟨job, hget, destined, settled.of_get? hget, herrand⟩

/-- In the end there is no other record. -/
theorem Settled.mem_ids_iff (id : JobId) : id ∈ s.store.ids ↔ ∃ k, names k = id := by
  have hsome : id ∈ s.store.ids ↔ ∃ job, s.store.get? id = some job := by
    rw [← Option.isSome_iff_exists, ← Option.ne_none_iff_isSome, Ne, Store.get?_eq_none_iff,
      not_not]
  rw [hsome]
  constructor
  · rintro ⟨job, hget⟩
    obtain ⟨-, k, hname, -⟩ := steady.expected id job hget
    exact ⟨k, hname.trans (Store.id_of_get? hget)⟩
  · rintro ⟨k, rfl⟩
    exact Option.isSome_iff_exists.1 (settled.created k)

end

/-- In the end a figure that is made of status, attempts and error is the same in both stores. -/
theorem Settled.total_eq {names' : Fin n → JobId} {s s' : Scene} (inj : Function.Injective names)
    (inj' : Function.Injective names') (steady : s.Steady work errands names)
    (steady' : s'.Steady work errands names') (settled : s.Settled names)
    (settled' : s'.Settled names') {f : Job → Nat}
    (hf : ∀ a b : Job, a.status = b.status → a.attempts = b.attempts → f a = f b) :
    s.store.total f = s'.store.total f := by
  rw [steady.distinct.total_eq inj (settled.mem_ids_iff steady),
    steady'.distinct.total_eq inj' (settled'.mem_ids_iff steady')]
  congr 1
  apply List.map_congr_left
  intro k _
  obtain ⟨a, hgetA, destinedA, settledA, errandA⟩ := settled.record steady inj k
  obtain ⟨b, hgetB, destinedB, settledB, errandB⟩ := settled'.record steady' inj' k
  obtain ⟨hstatus, hattempts, -⟩ :=
    destinedA.agree destinedB settledA settledB (errandA.symm.trans errandB)
  simp [hgetA, hgetB, hf a b hstatus hattempts]

/-- In the end the ledger shows the figures of the store. -/
theorem Settled.agrees {capacity : Nat} {s : Scene} (settled : s.Settled names)
    (run : (Scene.of (.empty capacity)).Reaches (Action.follows exec errands names) s) :
    s.pipeline.Agrees := by
  have start : (Scene.of (.empty capacity)).Balanced :=
    Balanced.of_agrees List.nodup_nil ⟨rfl, rfl, rfl, rfl⟩
  have fitting := run.mono fun _ _ h => Action.fitting_of_follows h
  exact (balanced_of_reaches fitting start).agrees settled.quiet

end Scene

/-- **The outcome does not depend on the schedule.** Two runs over the same jobs, with whatever
workers, sweeps, queues and orders of steps, that both come to an end with all jobs through, end
with the same records and the same counters. -/
theorem outcome_independent_of_schedule {names' : Fin n → JobId} (gives : exec.Gives work)
    (inj : Function.Injective names) (inj' : Function.Injective names')
    (budget : ∀ k, (errands k).maxRetries.toNat < 4294967295)
    {capacity capacity' : Nat} {s s' : Scene}
    (run : (Scene.of (.empty capacity)).Reaches (Action.follows exec errands names) s)
    (run' : (Scene.of (.empty capacity')).Reaches (Action.follows exec errands names') s')
    (settled : s.Settled names) (settled' : s'.Settled names') :
    (∀ k, ∃ a b, s.store.get? (names k) = some a ∧ s'.store.get? (names' k) = some b ∧
      a.status = b.status ∧ a.attempts = b.attempts ∧ a.lastError = b.lastError) ∧
      s.ledger = s'.ledger := by
  have steady := Scene.Steady.of_reaches gives budget run
  have steady' := Scene.Steady.of_reaches gives budget run'
  constructor
  · intro k
    obtain ⟨a, hgetA, destinedA, settledA, errandA⟩ := settled.record steady inj k
    obtain ⟨b, hgetB, destinedB, settledB, errandB⟩ := settled'.record steady' inj' k
    exact ⟨a, b, hgetA, hgetB,
      destinedA.agree destinedB settledA settledB (errandA.symm.trans errandB)⟩
  · have agrees := Pipeline.agrees_iff.1 (settled.agrees run)
    have agrees' := Pipeline.agrees_iff.1 (settled'.agrees run')
    have reading_eq (c : Counter) : s.ledger.reading c = s'.ledger.reading c := by
      have hfigure : s.store.figure c = s'.store.figure c := by
        apply Scene.Settled.total_eq inj inj' steady steady' settled settled'
        intro a b hstatus _
        cases c <;> simp [Counter.weight, hstatus]
      exact UInt64.toNat_inj.1 ((agrees c).trans (hfigure.trans (agrees' c).symm))
    have retried_eq : s.ledger.retried = s'.ledger.retried := by
      have htotal : s.store.total Job.retries = s'.store.total Job.retries := by
        apply Scene.Settled.total_eq inj inj' steady steady' settled settled'
        intro a b hstatus hattempts
        simp [Job.retries, hstatus, hattempts]
      rw [← UInt64.toNat_inj, steady.retried.retried_eq settled.quiet,
        steady'.retried.retried_eq settled'.quiet, htotal]
    have hext : ∀ l l' : Ledger,
        (∀ c, l.reading c = l'.reading c) → l.retried = l'.retried → l = l' := by
      rintro ⟨⟩ ⟨⟩ h rfl
      obtain rfl := h .created
      obtain rfl := h .completed
      obtain rfl := h .failed
      obtain rfl := h .inProgress
      rfl
    exact hext _ _ reading_eq retried_eq

/-- A job that succeeds at once, and one that fails twice. -/
def twoErrands : Fin 2 → Errand
  | 0 => ⟨"email_send", [], 3⟩
  | 1 => ⟨"always_fail", [], 1⟩

def twoNames (first second : String) : Fin 2 → JobId
  | 0 => ⟨first⟩
  | 1 => ⟨second⟩

def Errand.job (e : Errand) (id : JobId) : Job :=
  ⟨id, e.kind, .pending, e.payload, 0, e.maxRetries, none, ⟨0, 0⟩⟩

/-- The next operation of an actor whose workload fails. -/
def Action.goWrong (i : Nat) : Action :=
  .act i ⟨false, .result (.failure (Executor.alwaysFails "always_fail"))⟩

/-- One after the other, on a queue with one place: the second job is handed out once by the queue
and once not. -/
def oneByOne : List Action :=
  [.enter (.creation (.storing ((twoErrands 0).job ⟨"a"⟩))), .go 0, .go 0, .go 0,
    .enter (.worker .looking), .go 1, .go 1, .go 1, .go 1, .go 1, .go 1, .go 1, .go 1,
    .enter (.creation (.storing ((twoErrands 1).job ⟨"b"⟩))), .go 2, .go 2, .go 2,
    .go 1, .go 1, .go 1, .go 1, .goWrong 1, .goWrong 1, .go 1,
    .enter (.handling (.claiming ⟨"b"⟩)), .go 3, .go 3, .go 3, .goWrong 3, .goWrong 3, .go 3]

/-- Both at once, with a sweep in between, and on an ampler queue that nobody looks at. -/
def bothAtOnce : List Action :=
  [.enter (.creation (.storing ((twoErrands 1).job ⟨"d"⟩))),
    .enter (.creation (.storing ((twoErrands 0).job ⟨"c"⟩))), .go 0, .go 1,
    .enter (.handling (.claiming ⟨"d"⟩)), .go 2, .enter (.handling (.claiming ⟨"c"⟩)), .go 3, .go 0,
    .go 2, .go 2, .go 3, .goWrong 2, .enter (.sweep .recovering), .go 4, .goWrong 2, .go 3, .go 3,
    .go 3, .enter (.handling (.claiming ⟨"d"⟩)), .go 5, .go 5, .go 5, .goWrong 5, .go 2, .goWrong 5,
    .go 1, .go 3, .go 5]

theorem twoNames_injective {first second : String} (h : first ≠ second) :
    Function.Injective (twoNames first second) := by
  intro k l hkl
  match k, l with
  | 0, 0 => rfl
  | 1, 1 => rfl
  | 0, 1 => exact absurd (congrArg JobId.text hkl) h
  | 1, 0 => exact absurd (congrArg JobId.text hkl).symm h

/-- The two orders of steps lead to the same counters. -/
theorem outcome_of_two_schedules :
    ∃ s s', (Scene.of (.empty 1)).Reaches
        (Action.follows (.simulated 100 "always_fail") twoErrands (twoNames "a" "b")) s ∧
      (Scene.of (.empty 3)).Reaches
        (Action.follows (.simulated 100 "always_fail") twoErrands (twoNames "c" "d")) s' ∧
      s.ledger = ⟨2, 1, 1, 1, 0⟩ ∧ s'.ledger = s.ledger := by
  have run : (Scene.of (.empty 1)).Reaches
      (Action.follows (.simulated 100 "always_fail") twoErrands (twoNames "a" "b")) _ :=
    Scene.reaches_of_play oneByOne rfl
  have run' : (Scene.of (.empty 3)).Reaches
      (Action.follows (.simulated 100 "always_fail") twoErrands (twoNames "c" "d")) _ :=
    Scene.reaches_of_play bothAtOnce rfl
  refine ⟨_, _, run, run', rfl, ?_⟩
  refine (outcome_independent_of_schedule (Executor.simulated_gives 100 "always_fail")
    (twoNames_injective (by decide)) (twoNames_injective (by decide))
    (Fin.forall_fin_two.2 (by decide)) run run'
    ⟨?_, rfl, rfl, ?_⟩ ⟨?_, rfl, rfl, ?_⟩).2.symm
  · exact Fin.forall_fin_two.2 ⟨rfl, rfl⟩
  · exact of_decide_eq_true rfl
  · exact Fin.forall_fin_two.2 ⟨rfl, rfl⟩
  · exact of_decide_eq_true rfl

end JobPipeline
