import JobPipeline.Proofs.Scene.Moves

/-!
# Work on one id

In a drain nothing stops the workers, and every workload comes to a result. `Handling.Works` lists
what a worker does then for the id in its hands, and what becomes of the store. Either it comes
closer to the next id (`Handling.toGo`), or it uses up one of the retries that the record is still
good for (`Job.leeway`). An id that is `inFlight` may come back to the queue, and one that is
`escorted?` is on its way from there or back there.
-/

namespace JobPipeline

/-! ## What a record is still good for -/

namespace Job

/-- How many retries a record can still be given without a sweep. -/
def leeway (job : Job) : Nat :=
  match job.status with
  | .pending => job.maxRetries.toNat - job.attempts.toNat
  | .processing => job.maxRetries.toNat + 1 - job.attempts.toNat
  | _ => 0

theorem leeway_started {job : Job} (pending : job.status = .pending) (budget : job.Budgeted) :
    job.started.leeway = job.leeway := by
  have hcount := toNat_saturatingSucc job.attempts
  have hbudget : job.maxRetries.toNat < 4294967295 := budget
  simp only [leeway, pending, started, hcount]
  omega

/-- A retry uses up one of those left, and other reports all of them. -/
theorem leeway_reported {job : Job} (processing : job.status = .processing) (result : WorkResult) :
    (job.reported result).leeway + (decide ((job.reported result).status = .pending)).toNat ≤
      job.leeway := by
  cases result with
  | success => simp [reported, leeway]
  | failure reason =>
    by_cases hr : job.retryable = true
    · have hle := retryable_iff.1 hr
      simp only [reported, verdict, hr, if_true, Verdict.status, leeway, processing, decide_true,
        Bool.toNat_true]
      omega
    · simp [reported, verdict, hr, Verdict.status, leeway]

end Job

namespace Handling

/-- The way to go until the id is off hands. An offer costs more than an id in the buffer, which
it may make. -/
def toGo : Handling → Nat
  | .claiming _ => 8
  | .claimed _ => 7
  | .ready _ => 6
  | .working _ => 5
  | .reporting _ _ => 4
  | .succeeded _ => 3
  | .failed _ .retry => 13
  | .failed _ .exhausted => 3
  | .requeueing _ => 12
  | .done _ => 2

/-- Whether the id may come back to the queue. -/
def inFlight : Handling → Nat
  | .succeeded _ => 0
  | .failed _ .exhausted => 0
  | .done _ => 0
  | _ => 1

/-- The id on its way from the queue to the claim, or from the report to the queue. -/
def escorted? : Handling → Option JobId
  | .claiming id => some id
  | .failed job .retry => some job.id
  | .requeueing job => some job.id
  | _ => none

def id? : Handling → Option JobId
  | .claiming id => some id
  | .claimed job => some job.id
  | .ready job => some job.id
  | .working job => some job.id
  | .reporting job _ => some job.id
  | .succeeded job => some job.id
  | .failed job _ => some job.id
  | .requeueing job => some job.id
  | .done _ => none

/-- What a worker does for an id in its hands, but for the offer, and what becomes of the store. -/
inductive Works (s : Store) : Handling → Handling → Store → Prop
  | claim {old : Job} (found : s.get? old.id = some old) (pending : old.status = .pending) :
      Works s (.claiming old.id) (.claimed old.started) (s.set old.id old.started)
  | skip {id : JobId} (unclaimable : ∀ job, s.get? id = some job → job.status ≠ .pending) :
      Works s (.claiming id) (.done .notClaimable) s
  | count (job : Job) : Works s (.claimed job) (.ready job) s
  | start (job : Job) : Works s (.ready job) (.working job) s
  | finish (job : Job) (result : WorkResult) : Works s (.working job) (.reporting job result) s
  | report {job old : Job} (same : job.id = old.id) (found : s.get? old.id = some old)
      (processing : old.status = .processing) (result : WorkResult) :
      Works s (.reporting job result) (afterReport job old result)
        (s.set old.id (old.reported result))
  | reject (job : Job) (result : WorkResult) :
      Works s (.reporting job result) (.done .reportRejected) s
  | complete (job : Job) : Works s (.succeeded job) (.done .completed) s
  | retry (job : Job) : Works s (.failed job .retry) (.requeueing job) s
  | exhaust (job : Job) : Works s (.failed job .exhausted) (.done .failed) s

/-- The handling of an id that nothing stops works on the id, until it has to offer it. -/
theorem works_of_proceeds {h h' : Handling} {p p' : Pipeline}
    (proceeds : h.Proceeds false p h' p') :
    (h.Works p.store h' p'.store ∧ p'.queue = p.queue) ∨
      ∃ job, h = .requeueing job ∧ h' = .done (.retrying (p.queue.offer job.id).1) ∧
        p' = { p with queue := (p.queue.offer job.id).2 } := by
  cases proceeds with
  | claim found pending => exact .inl ⟨.claim found pending, rfl⟩
  | skip unclaimable => exact .inl ⟨.skip unclaimable, rfl⟩
  | count job => exact .inl ⟨.count job, rfl⟩
  | start job => exact .inl ⟨.start job, rfl⟩
  | forgo job stops => cases stops
  | interrupt job stops => cases stops
  | report same found processing result => exact .inl ⟨.report same found processing result, rfl⟩
  | reject result => exact .inl ⟨.reject _ result, rfl⟩
  | complete job => exact .inl ⟨.complete job, rfl⟩
  | retry job => exact .inl ⟨.retry job, rfl⟩
  | exhaust job => exact .inl ⟨.exhaust job, rfl⟩
  | requeue job => exact .inr ⟨job, rfl, rfl, rfl⟩

namespace Works

variable {s s' : Store} {h h' : Handling}

theorem inFlight_le (works : h.Works s h' s') : h'.inFlight ≤ h.inFlight := by
  cases works with
  | @report job old _ _ _ result =>
    cases result with
    | success => exact Nat.zero_le _
    | failure reason =>
      show (Handling.failed job old.verdict).inFlight ≤ 1
      cases old.verdict with
      | retry => exact Nat.le_refl 1
      | exhausted => exact Nat.zero_le 1
  | skip => exact Nat.zero_le _
  | reject => exact Nat.zero_le _
  | _ => exact Nat.le_refl _

/-- **Work shortens the way to go, or else uses up a retry.** -/
theorem descends (works : h.Works s h' s') (distinct : s.Distinct)
    (budget : s.All Job.Budgeted) :
    10 * s'.total Job.leeway + h'.toGo < 10 * s.total Job.leeway + h.toGo := by
  cases works with
  | @claim old found pending =>
    have ht : (s.set old.id old.started).total Job.leeway + _ = _ :=
      distinct.total_set found Job.leeway
    have := Job.leeway_started pending (budget _ _ found)
    simp only [toGo]; omega
  | @report job old _ found processing result =>
    have ht : (s.set old.id (old.reported result)).total Job.leeway + _ = _ :=
      distinct.total_set found Job.leeway
    have hle := Job.leeway_reported processing result
    cases result with
    | success => simp only [afterReport, toGo]; omega
    | failure reason =>
      cases hv : old.verdict with
      | retry =>
        have hpending : (old.reported (.failure reason)).status = .pending := by
          simp [Job.reported, hv, Verdict.status]
        simp only [hpending, decide_true, Bool.toNat_true] at hle
        simp only [afterReport, hv, toGo]; omega
      | exhausted => simp only [afterReport, hv, toGo]; omega
  | _ => simp only [toGo]; omega

/-- Where a record is pending after work, it was so before, unless its id is on the way back to
the queue. -/
theorem pending (works : h.Works s h' s') {id : JobId} {job : Job} (hget : s'.get? id = some job)
    (hp : job.status = .pending) :
    h'.escorted? = some id ∨ s.get? id = some job ∧ h.escorted? ≠ some id := by
  have nobody : (none : Option JobId) ≠ some id := (Option.some_ne_none id).symm
  cases works with
  | @claim old found _ =>
    by_cases hid : id = old.id
    · subst hid
      rw [Store.get?_set_self (Job.id_started old) found] at hget
      cases hget; cases hp
    · rw [Store.get?_set_of_ne (Job.id_started old) hid] at hget
      refine .inr ⟨hget, ?_⟩
      intro h; exact hid (Option.some.inj h).symm
  | skip unclaimable =>
    refine .inr ⟨hget, ?_⟩
    intro h
    rw [← Option.some.inj h] at hget
    exact unclaimable job hget hp
  | @report mine old same found processing result =>
    by_cases hid : id = old.id
    · subst hid
      rw [Store.get?_set_self (Job.id_reported result old) found] at hget
      cases hget
      cases result with
      | success => cases hp
      | failure reason =>
        cases hv : old.verdict with
        | retry => simp only [afterReport, hv, escorted?, same, true_or]
        | exhausted => simp [Job.reported, hv, Verdict.status] at hp
    · rw [Store.get?_set_of_ne (Job.id_reported result old) hid] at hget
      exact .inr ⟨hget, nobody⟩
  | retry mine =>
    by_cases hid : mine.id = id
    · exact .inl (congrArg some hid)
    · refine .inr ⟨hget, ?_⟩
      intro h; exact hid (Option.some.inj h)
  | _ => exact .inr ⟨hget, nobody⟩

/-- Work is about the id in hands only, and keeps it there or lets go of it. -/
theorem own (works : h.Works s h' s') :
    (h'.id? = none ∨ h'.id? = h.id?) ∧ ∀ id, h.id? ≠ some id → s'.get? id = s.get? id := by
  cases works with
  | @claim old found _ =>
    refine ⟨.inr rfl, ?_⟩
    intro id hid
    have hne : id ≠ old.id := by rintro rfl; exact hid rfl
    exact Store.get?_set_of_ne (Job.id_started old) hne
  | @report mine old same found _ result =>
    refine ⟨.inr ?_, ?_⟩
    · cases result <;> rfl
    · intro id hid
      have hne : id ≠ old.id := by rintro rfl; rw [← same] at hid; exact hid rfl
      exact Store.get?_set_of_ne (Job.id_reported result old) hne
  | skip => exact ⟨.inl rfl, fun _ _ => rfl⟩
  | reject => exact ⟨.inl rfl, fun _ _ => rfl⟩
  | complete => exact ⟨.inl rfl, fun _ _ => rfl⟩
  | exhaust => exact ⟨.inl rfl, fun _ _ => rfl⟩
  | _ => exact ⟨.inr rfl, fun _ _ => rfl⟩

/-- A property of records that claims and reports keep, work keeps. -/
theorem records {P : Job → Prop} (works : h.Works s h' s') (all : s.All P)
    (started : ∀ job, P job → P job.started)
    (reported : ∀ job result, P job → P (job.reported result)) : s'.All P := by
  cases works with
  | claim found _ => exact all.set found (Job.id_started _) (started _ (all _ _ found))
  | report _ found _ result =>
    exact all.set found (Job.id_reported _ _) (reported _ result (all _ _ found))
  | _ => exact all

theorem distinct (works : h.Works s h' s') (distinct : s.Distinct) : s'.Distinct := by
  cases works with
  | claim => exact distinct.set (Job.id_started _)
  | report => exact distinct.set (Job.id_reported _ _)
  | _ => exact distinct

end Works
end Handling

end JobPipeline
