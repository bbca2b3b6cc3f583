import JobPipeline.Proofs.Scene.Retries

/-!
# No attempt is lost

Every attempt at a job is a claim, and every claim comes to one of four ends that some counter of
the ledger shows: it completes the job, fails it for good, sends it back for a retry, or is still
under way, be it at work or given up. So the attempts of all records are the sum of these four
counters, and what is pending is what has been created or sent back and not claimed since
(`attempts_conserved`).

Record by record, the attempts are the retries and, unless the job is pending, the attempt that
stands (`Job.WithinBudget.attempts_eq`). Three counters show how many records there are of each
status (`Scene.Balanced`) and the fourth shows the retries (`Scene.RetriesTold`). That takes budgets
in which no counter of attempts saturates (`Job.Budgeted`).

Counters are words. The number of retries has no bound but time, so the sum is one of words; where
the attempts of all records fit into a word, it is one of numbers.
-/

namespace JobPipeline

/-- What may happen, while the process has room, where no job is granted the greatest budget. -/
def Action.affordable (s : Scene) (action : Action) : Bool :=
  action.fitting s && match action with
    | .act i _ => match s.actors[i]? with
      | some (.creation (.storing job)) => job.maxRetries.toNat < 4294967295
      | _ => true
    | _ => true

theorem Action.fitting_of_affordable {s : Scene} {action : Action}
    (h : action.affordable s = true) : action.fitting s = true := (Bool.and_eq_true_iff.1 h).1

/-- The attempts at a job are its retries and, unless it is pending, the attempt that stands. -/
theorem Job.WithinBudget.attempts_eq {job : Job} (h : job.WithinBudget) :
    job.attempts.toNat = job.retries + (decide (job.status ≠ .pending)).toNat := by
  by_cases pending : job.status = .pending
  · simp [Job.retries, pending]
  · have := h.attempts_pos pending
    simp [Job.retries, pending]
    omega

namespace Store

/-- The attempts at all jobs. -/
def attempts (s : Store) : Nat := s.total fun job => job.attempts.toNat

/-- Figures that agree on every record have the same total. -/
theorem Distinct.total_congr {s : Store} (h : s.Distinct) {f g : Job → Nat}
    (agree : s.All fun job => f job = g job) : s.total f = s.total g := by
  unfold total
  congr 1
  apply List.map_congr_left
  intro e he
  exact agree _ _ (h.get?_of_mem he)

/-- The attempts at all jobs are the retries and the attempts that stand. -/
theorem Distinct.attempts_eq {s : Store} (h : s.Distinct) (within : s.All Job.WithinBudget) :
    s.attempts + s.count .pending = s.total Job.retries + s.size := by
  have hpending (job : Job) :
      (decide (job.status ≠ .pending)).toNat + (decide (job.status = .pending)).toNat = 1 := by
    by_cases pending : job.status = .pending <;> simp [pending]
  rw [attempts, size_eq_total, count_eq_total, ← total_add, ← total_add]
  apply h.total_congr
  intro id job hget
  have := (within id job hget).attempts_eq
  have := hpending job
  omega

end Store

namespace Scene

/-- What makes attempts countable.

  * `within`   — the status of every record tells about its attempts.
  * `budgeted` — no counter of attempts saturates.
  * `retried`  — the counter of retries, with those owed, is what the attempts show. -/
structure Counted (s : Scene) : Prop where
  balanced : s.Balanced
  within : s.store.All Job.WithinBudget
  budgeted : s.store.All Job.Budgeted
  retried : s.RetriesTold

namespace Counted

variable {s s' : Scene}

theorem of_empty (capacity : Nat) : (Scene.of (.empty capacity)).Counted where
  balanced := Balanced.of_agrees List.nodup_nil ⟨rfl, rfl, rfl, rfl⟩
  within id job h := by cases h
  budgeted id job h := by cases h
  retried := rfl

theorem enter (h : s.Counted) {a : Actor} (hnew : a.isNewcomer = true) :
    ({ s with actors := s.actors ++ [a] } : Scene).Counted := by
  have howed : a.owed = [] := by
    rcases Actor.newcomer_cases hnew with rfl | ⟨id, rfl⟩ | rfl | ⟨job, rfl⟩ <;> rfl
  exact ⟨h.balanced.enter hnew, h.within, h.budgeted, h.retried.enter howed⟩

/-- A deed keeps attempts countable, if what it creates has a budget that can be counted. -/
theorem deed (h : s.Counted) (fits : s.Fits) {i : Nat} {a a' : Actor} {d : Deed} {p : Pipeline}
    (ha : s.actors[i]? = some a) (hdoes : a.Does d a') (heffect : d.Effect s.pipeline p)
    (fresh : d.Fresh s.store) (affords : ∀ job, d = .create job → job.Budgeted) :
    Counted ⟨p, s.actors.set i a'⟩ := by
  have calm : s.store.All (·.lapsed = false) := fun id job hget => (h.within id job hget).not_lapsed
  refine ⟨h.balanced.deed fits ha hdoes heffect fresh, ?_, ?_, ?_⟩
  · -- within
    refine heffect.records h.within calm ?_ ?_ ?_
    · intro old _ within pending
      exact within.started pending
    · intro old result _ within processing
      exact within.reported processing result
    · rintro job rfl
      exact .of_isNew fresh.1
  · -- budgeted
    refine heffect.records h.budgeted calm ?_ ?_ affords
    · intro old _ budgeted _
      exact budgeted
    · intro old result _ budgeted _
      rw [Job.Budgeted, Job.maxRetries_reported]
      exact budgeted
  · -- retried
    exact h.retried.deed ha hdoes heffect fresh h.balanced.distinct h.within h.budgeted

theorem step (h : s.Counted) {action : Action} (affordable : action.affordable s = true)
    (hstep : s.step action = some s') : s'.Counted := by
  have fitting := Action.fitting_of_affordable affordable
  obtain ⟨lawful, fits⟩ := Action.fitting_iff.1 fitting
  cases action with
  | enter a => cases hstep; exact h.enter lawful
  | offer id =>
    cases hstep
    have b := h.balanced
    exact ⟨⟨b.distinct, b.even, b.held, b.spent, b.credited⟩, h.within, h.budgeted, h.retried⟩
  | close =>
    cases hstep
    have b := h.balanced
    exact ⟨⟨b.distinct, b.even, b.held, b.spent, b.credited⟩, h.within, h.budgeted, h.retried⟩
  | act i cue =>
    obtain ⟨a, a', p, ha, hs, rfl⟩ := step_act_iff.1 hstep
    obtain ⟨d, heffect, hdoes⟩ := Actor.step_does hs
    refine h.deed fits ha hdoes heffect (fresh_of_lawful lawful ha hdoes) ?_
    rintro job rfl
    cases hdoes
    simpa [Action.affordable, fitting, ha, Job.Budgeted] using affordable

theorem of_reaches {capacity : Nat}
    (run : (Scene.of (.empty capacity)).Reaches Action.affordable s) : s.Counted :=
  run.invariant (fun _ _ _ h affordable hstep => h.step affordable hstep) (of_empty capacity)

/-! ## Where nothing is owed -/

/-- The attempts are the retries and the jobs that are not pending. -/
theorem attempts_eq (h : s.Counted) (quiet : s.Quiet) :
    s.store.attempts = s.store.total Job.retries +
      (s.ledger.completed.toNat + s.ledger.failed.toNat + s.ledger.inProgress.toNat) := by
  have agrees := h.balanced.agrees quiet
  have hattempts := h.balanced.distinct.attempts_eq h.within
  have hsize := s.store.size_eq_counts
  have hcompleted := agrees.completed
  have hfailed := agrees.failed
  have hprogress := agrees.inProgress
  simp only [Scene.store, Scene.ledger] at *
  omega

/-- What is pending has been created or sent back, and not been claimed since. -/
theorem pending_eq (h : s.Counted) (quiet : s.Quiet) :
    s.store.count .pending + s.store.attempts =
      s.ledger.created.toNat + s.store.total Job.retries := by
  have hattempts := h.balanced.distinct.attempts_eq h.within
  have hcreated := (h.balanced.agrees quiet).created
  simp only [Scene.store, Scene.ledger] at *
  omega

end Counted
end Scene

/-- **No attempt is lost.** In a service that starts empty, whoever comes and whatever they do:
whenever nobody owes the ledger a call, the attempts of all jobs are the completions, the final
failures, the retries and the jobs in progress, and what is pending is what has been created or
sent back for a retry, less the attempts. Both are equations between words, and between numbers as
long as the attempts fit into a word. -/
theorem attempts_conserved {capacity : Nat} {s : Scene}
    (run : (Scene.of (.empty capacity)).Reaches Action.affordable s) (quiet : s.Quiet) :
    UInt64.ofNat s.store.attempts =
        s.ledger.completed + s.ledger.failed + s.ledger.retried + s.ledger.inProgress ∧
      UInt64.ofNat (s.store.count .pending) =
        s.ledger.created + s.ledger.retried - UInt64.ofNat s.store.attempts ∧
      (s.store.attempts < 2 ^ 64 →
        s.store.attempts = s.ledger.completed.toNat + s.ledger.failed.toNat +
            s.ledger.retried.toNat + s.ledger.inProgress.toNat ∧
          s.store.count .pending + s.store.attempts =
            s.ledger.created.toNat + s.ledger.retried.toNat) := by
  have counted := Scene.Counted.of_reaches run
  have hretried := counted.retried.retried_eq quiet
  have hattempts := counted.attempts_eq quiet
  have hpending := counted.pending_eq quiet
  refine ⟨?_, ?_, ?_⟩
  · apply UInt64.toNat_inj.1
    simp only [UInt64.toNat_ofNat', UInt64.toNat_add]
    omega
  · rw [eq_sub_iff_add_eq]
    apply UInt64.toNat_inj.1
    simp only [UInt64.toNat_ofNat', UInt64.toNat_add]
    omega
  · intro room
    constructor <;> omega

/-- Three jobs. The first fails, is tried again and given up at its second attempt, when its worker
is stopped; the second succeeds; the third is never looked at. -/
def threeFates : List Action :=
  let job (id : String) : Job := ⟨⟨id⟩, "email_send", .pending, [], 0, 3, none, ⟨0, 0⟩⟩
  [.enter (.creation (.storing (job "a"))), .go 0, .go 0, .go 0,
    .enter (.creation (.storing (job "b"))), .go 1, .go 1, .go 1,
    .enter (.creation (.storing (job "c"))), .go 2, .go 2, .go 2,
    .enter (.handling (.claiming ⟨"a"⟩)), .go 3, .go 3, .go 3,
    .act 3 ⟨false, .result (.failure "no route")⟩, .go 3, .go 3, .go 3, .go 3,
    .enter (.handling (.claiming ⟨"b"⟩)), .go 4, .go 4, .go 4, .go 4, .go 4, .go 4,
    .enter (.handling (.claiming ⟨"a"⟩)), .go 5, .go 5, .go 5, .act 5 ⟨true, .result .success⟩]

theorem attempts_of_threeFates :
    ∃ s, (Scene.of (.empty 2)).Reaches Action.affordable s ∧ s.Quiet ∧ s.ledger = ⟨3, 1, 0, 1, 1⟩ ∧
      s.store.attempts = 3 ∧ s.store.count .pending + 3 = 3 + 1 := by
  have run : (Scene.of (.empty 2)).Reaches Action.affordable _ :=
    Scene.reaches_of_play threeFates rfl
  refine ⟨_, run, of_decide_eq_true rfl, rfl, ?_⟩
  exact (attempts_conserved run (of_decide_eq_true rfl)).2.2 (of_decide_eq_true rfl)

end JobPipeline
