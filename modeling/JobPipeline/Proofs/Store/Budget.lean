import JobPipeline.Proofs.Store.History
import JobPipeline.Service.Basic

/-!
# Retry budgets

A job that is granted `m` retries may be attempted `m + 1` times. Its status tells how many of these
have been used: `Job.WithinBudget` gives the bounds, and in a store that is filled by a service only
(`Store.Serves`) every record keeps them, whatever else is done to the store.

The bounds are tight at `failed`, where the budget is used up to the last attempt. So a failed job
is never retryable, a sweep finds nothing to send back, and a job that has completed or failed
stands as it is. They hold up to the greatest budget, where the counter of attempts saturates: there
no attempt is ever the last, and no job fails.
-/

namespace JobPipeline

namespace Job

/-- What the status of a job tells about its attempts. -/
structure WithinBudget (job : Job) : Prop where
  pending : job.status = .pending → job.attempts.toNat ≤ job.maxRetries.toNat
  claimed : job.status = .processing ∨ job.status = .completed →
    1 ≤ job.attempts.toNat ∧ job.attempts.toNat ≤ job.maxRetries.toNat + 1
  failed : job.status = .failed →
    job.attempts.toNat = job.maxRetries.toNat + 1 ∧ job.lastError.isSome

/-- Whether the attempts at the job are over. -/
def Final (job : Job) : Prop := job.status = .completed ∨ job.status = .failed

variable {job job' : Job}

theorem WithinBudget.of_isNew (new : job.isNew = true) : job.WithinBudget := by
  obtain ⟨hstatus, hattempts⟩ : job.status = .pending ∧ job.attempts = 0 := by
    simpa [isNew] using new
  constructor <;> simp [hstatus, hattempts]

theorem WithinBudget.started (h : job.WithinBudget) (pending : job.status = .pending) :
    job.started.WithinBudget := by
  have hle := h.pending pending
  have hsucc := toNat_saturatingSucc job.attempts
  refine ⟨nofun, fun _ => ?_, nofun⟩
  simp only [Job.started, hsucc]
  omega

/-- A failure that leads to no retry has used the last attempt. -/
theorem WithinBudget.reported (h : job.WithinBudget) (processing : job.status = .processing)
    (result : WorkResult) : (job.reported result).WithinBudget := by
  obtain ⟨hpos, hle⟩ := h.claimed (.inl processing)
  cases result with
  | success => exact ⟨nofun, fun _ => ⟨hpos, hle⟩, nofun⟩
  | failure reason =>
    by_cases hretry : job.retryable = true
    · have hstatus : (job.reported (.failure reason)).status = .pending := by
        simp [Job.reported, verdict, hretry, Verdict.status]
      refine ⟨fun _ => retryable_iff.1 hretry, ?_, ?_⟩ <;> simp [hstatus]
    · have hstatus : (job.reported (.failure reason)).status = .failed := by
        simp [Job.reported, verdict, hretry, Verdict.status]
      refine ⟨?_, ?_, fun _ => ⟨?_, rfl⟩⟩
      · simp [hstatus]
      · simp [hstatus]
      · rw [retryable_iff] at hretry
        simp only [attempts_reported, maxRetries_reported]
        omega

theorem WithinBudget.change (h : job.WithinBudget) {e : Happening} (change : Change job e job') :
    job'.WithinBudget := by
  cases change with
  | claim pending => exact h.started pending
  | success processing => exact h.reported processing .success
  | failure processing reason => exact h.reported processing (.failure reason)

theorem WithinBudget.not_retryable (h : job.WithinBudget) (failed : job.status = .failed) :
    job.retryable = false := by
  have := (h.failed failed).1
  rw [← Bool.not_eq_true, retryable_iff]
  omega

theorem WithinBudget.not_lapsed (h : job.WithinBudget) : job.lapsed = false := by
  by_cases failed : job.status = .failed
  · simp [lapsed, h.not_retryable failed]
  · simp [lapsed, failed]

/-- Nothing but a sweep takes up a job whose attempts are over. -/
theorem Final.not_changed (final : job.Final) {e : Happening} : ¬ Change job e job' := by
  intro change
  cases change <;> simp_all [Final]

end Job

namespace Store

/-! ## What becomes of a record -/

/-- A step in the life of a store to which new records come under new ids only. -/
inductive Evolves (s : Store) : Store → Prop
  | rest : s.Evolves s
  | change {old new : Job} {e : Happening} (found : s.get? old.id = some old)
      (change : Change old e new) : s.Evolves (s.set old.id new)
  | create {job : Job} {s' : Store} (new : job.isNew = true) (fresh : s.get? job.id = none)
      (wrote : s.create job false = .ok s') : s.Evolves s'
  | sweep : s.Evolves s.swept

namespace Evolves

variable {s s' : Store} {id : JobId} {job job' : Job}

/-- Every record stays in the store. -/
theorem record (h : s.Evolves s') (hget : s.get? id = some job) :
    ∃ job', s'.get? id = some job' ∧
      (job' = job ∨ (∃ e, Change job e job') ∨ job' = job.swept) := by
  cases h with
  | rest => exact ⟨job, hget, .inl rfl⟩
  | @change old new e found change =>
    by_cases hid : id = old.id
    · subst hid
      obtain rfl : job = old := Option.some.inj (hget.symm.trans found)
      exact ⟨new, get?_set_self change.id_eq found, .inr (.inl ⟨e, change⟩)⟩
    · exact ⟨job, by rw [get?_set_of_ne change.id_eq hid]; exact hget, .inl rfl⟩
  | @create other _ _ fresh wrote =>
    have hne : id ≠ other.id := by
      rintro rfl
      exact absurd (hget.symm.trans fresh) (by simp)
    exact ⟨job, by rw [get?_create wrote, if_neg hne]; exact hget, .inl rfl⟩
  | sweep => exact ⟨job.swept, by rw [get?_swept, hget]; rfl, .inr (.inr rfl)⟩

/-- A record under an id that was not in use is new. -/
theorem isNew (h : s.Evolves s') (absent : s.get? id = none) (hget : s'.get? id = some job') :
    job'.isNew = true := by
  cases h with
  | rest => rw [absent] at hget; cases hget
  | change found change =>
    rw [get?_set change.id_eq] at hget
    split at hget <;> simp [absent] at hget
  | create new _ wrote =>
    rw [get?_create wrote] at hget
    split at hget
    · cases hget; exact new
    · rw [absent] at hget; cases hget
  | sweep => rw [get?_swept, absent] at hget; cases hget

theorem withinBudget (h : s.Evolves s') (within : ∀ job, s.get? id = some job → job.WithinBudget)
    (hget' : s'.get? id = some job') : job'.WithinBudget := by
  cases hget : s.get? id with
  | none => exact .of_isNew (h.isNew hget hget')
  | some job =>
    have budget := within job hget
    obtain ⟨job'', hget'', heq | ⟨e, change⟩ | heq⟩ := h.record hget
    all_goals obtain rfl : job' = job'' := Option.some.inj (hget'.symm.trans hget'')
    · rw [heq]; exact budget
    · exact budget.change change
    · rw [heq, Job.swept_of_not_lapsed budget.not_lapsed]; exact budget

/-- A job whose attempts are over stands as it is. -/
theorem final (h : s.Evolves s') (hget : s.get? id = some job) (budget : job.WithinBudget)
    (final : job.Final) : s'.get? id = some job := by
  obtain ⟨job', hget', heq | ⟨e, change⟩ | heq⟩ := h.record hget
  · rw [hget', heq]
  · exact absurd change final.not_changed
  · rw [hget', heq, Job.swept_of_not_lapsed budget.not_lapsed]

theorem distinct (h : s.Evolves s') (distinct : s.Distinct) : s'.Distinct := by
  cases h with
  | rest => exact distinct
  | change _ change => exact distinct.set change.id_eq
  | create _ _ wrote => exact distinct.create wrote
  | sweep => exact distinct.swept

end Evolves

/-! ## Stores behind a service -/

/-- A step in the life of a store behind a service: the service creates a job under a fresh id, or
somebody performs an operation other than a creation. -/
inductive Serves : Store → Store → Prop
  | create (service : Service) (id : JobId) (now : Instant) (r : Service.JobRequest)
      (fresh : service.pipeline.store.get? id = none) :
      Serves service.pipeline.store (service.create id now r).2.pipeline.store
  | operate (s : Store) (op : Operation)
      (noCreation : ∀ job cancelled, op ≠ .create job cancelled) : Serves s (s.apply op)

theorem store_creation_run (refused : Bool) (job : Job) (p : Pipeline) :
    (Creation.run refused job p).2.store = p.store.apply (.create job refused) := by
  cases refused <;> rfl

theorem Serves.evolves {s s' : Store} (h : Serves s s') : s.Evolves s' := by
  cases h with
  | create service id now r fresh =>
    show Evolves _ (Creation.run _ _ _).2.store
    rw [store_creation_run]
    cases !service.isAccepting with
    | true => exact .rest
    | false =>
      have new : (service.jobFor id now r).isNew = true := rfl
      exact .create new fresh rfl
  | operate _ op noCreation =>
    cases s.performs op with
    | refused same _ => rw [same]; exact .rest
    | changed found change wrote _ => rw [wrote]; exact .change found change
    | created isCreation _ => exact absurd isCreation (noCreation _ _)
    | swept wrote _ => rw [wrote]; exact .sweep

theorem withinBudget_of_serves {s : Store} (life : Relation.ReflTransGen Serves .empty s) :
    s.Distinct ∧ s.All Job.WithinBudget := by
  induction life with
  | refl => exact ⟨List.nodup_nil, nofun⟩
  | tail _ h ih =>
    exact ⟨h.evolves.distinct ih.1, fun id _ hget => h.evolves.withinBudget (ih.2 id) hget⟩

/-- **Budgets are kept, and what is over is over.** In a store behind a service every job is within
its budget, no failed job is retryable, a sweep moves nothing, and from the moment a job has
completed or failed nothing changes its record. -/
theorem budgets_kept_and_final {s : Store} (life : Relation.ReflTransGen Serves .empty s) :
    (∀ id job, s.get? id = some job → job.WithinBudget) ∧
      (∀ id job, s.get? id = some job → job.status = .failed → job.retryable = false) ∧
      s.recoverEligible false = .ok (0, s) ∧
      ∀ s', Relation.ReflTransGen Serves s s' → ∀ id job, s.get? id = some job → job.Final →
        s'.get? id = some job := by
  obtain ⟨distinct, all⟩ := withinBudget_of_serves life
  have notLapsed : s.All (·.lapsed = false) := fun id job hget => (all id job hget).not_lapsed
  refine ⟨all, fun id job hget failed => (all id job hget).not_retryable failed, ?_, ?_⟩
  · have hcount : (s.entries.countP fun e => e.job.lapsed) = 0 := by
      rw [List.countP_eq_zero]
      intro e he
      simp [notLapsed _ _ (distinct.get?_of_mem he)]
    rw [recoverEligible_eq, hcount, distinct.swept_eq notLapsed]
  · intro s' more id job hget final
    induction more with
    | refl => exact hget
    | tail _ h ih => exact h.evolves.final ih (all id job hget) final

/-- The life of a job without retries: it is created, claimed, and fails. -/
theorem budget_of_one_attempt :
    let service : Service := .ofConfig {} (.simulated 0 "always_fail")
    let created := (service.create ⟨"a"⟩ ⟨0, 0⟩ ⟨"email_send", [], some 0⟩).2.pipeline.store
    let s := (created.apply (.claim ⟨"a"⟩)).apply (.fail ⟨"a"⟩ "no route")
    ∃ job, s.get? ⟨"a"⟩ = some job ∧ job.Final ∧ job.attempts = 1 ∧
      s.recoverEligible false = .ok (0, s) ∧
      (s.apply (.claim ⟨"a"⟩)).get? ⟨"a"⟩ = some job := by
  intro service created s
  have life : Relation.ReflTransGen Serves .empty s :=
    .tail (.tail (.single (.create service ⟨"a"⟩ ⟨0, 0⟩ ⟨"email_send", [], some 0⟩ rfl))
      (.operate created (.claim ⟨"a"⟩) nofun)) (.operate _ (.fail ⟨"a"⟩ "no route") nofun)
  obtain ⟨-, -, swept, final⟩ := budgets_kept_and_final life
  have done : Job.Final ⟨⟨"a"⟩, "email_send", .failed, [], 1, 0, some "no route", ⟨0, 0⟩⟩ :=
    .inr rfl
  exact ⟨_, rfl, done, rfl, swept,
    final _ (.single (.operate s (.claim ⟨"a"⟩) nofun)) ⟨"a"⟩ _ rfl done⟩

end Store
end JobPipeline
