import JobPipeline.Worker.Handling

/-!
# What each operation makes of a record

The store changes a record in three ways only: a claim makes `started` of it, a report `reported`,
and a sweep `swept`. This module gives the three as total functions and shows that the guarded
changes of `Job` are these functions on the records that the transition table lets through, and
refusals on all others.
-/

namespace JobPipeline

/-- The state a failed attempt leaves a job in. -/
def Verdict.status : Verdict → Status
  | .retry => .pending
  | .exhausted => .failed

/-- What a job is to do, fixed at its creation. -/
structure Errand where
  kind : String
  payload : List UInt8
  maxRetries : UInt32
deriving DecidableEq, Repr

namespace Job

def errand (job : Job) : Errand := ⟨job.kind, job.payload, job.maxRetries⟩

/-- Whether the job is pending and has never been claimed. -/
def isNew (job : Job) : Bool := job.status = .pending && job.attempts = 0

def verdict (job : Job) : Verdict := if job.retryable then .retry else .exhausted

/-- The record a claim hands out. -/
def started (job : Job) : Job :=
  { job with status := .processing, attempts := saturatingSucc job.attempts }

/-- The record after the report of an attempt. -/
def reported (result : WorkResult) (job : Job) : Job :=
  match result with
  | .success => { job with status := .completed }
  | .failure reason => { job with status := job.verdict.status, lastError := some reason }

/-- Whether a sweep sends the job back to pending. -/
def lapsed (job : Job) : Bool := job.status = .failed && job.retryable

/-- Whether the job has failed for good. -/
def spent (job : Job) : Bool := job.status = .failed && !job.retryable

/-- Whether the job is pending once a sweep has been made. -/
def due (job : Job) : Bool := job.status = .pending || job.lapsed

/-- The record after a sweep. -/
def swept (job : Job) : Job := if job.lapsed then { job with status := .pending } else job

/-- The retries of the job can be counted. -/
def Budgeted (job : Job) : Prop := job.maxRetries.toNat < 4294967295

/-! ## What stays as it was -/

@[simp] theorem id_started (job : Job) : job.started.id = job.id := rfl

@[simp] theorem id_reported (result : WorkResult) (job : Job) :
    (job.reported result).id = job.id := by
  cases result <;> rfl

@[simp] theorem id_swept (job : Job) : job.swept.id = job.id := by
  unfold swept; split <;> rfl

@[simp] theorem errand_reported (result : WorkResult) (job : Job) :
    (job.reported result).errand = job.errand := by
  cases result <;> rfl

@[simp] theorem status_started (job : Job) : job.started.status = .processing := rfl

@[simp] theorem attempts_reported (result : WorkResult) (job : Job) :
    (job.reported result).attempts = job.attempts := by
  cases result <;> rfl

@[simp] theorem maxRetries_reported (result : WorkResult) (job : Job) :
    (job.reported result).maxRetries = job.maxRetries := by
  cases result <;> rfl

@[simp] theorem maxRetries_swept (job : Job) : job.swept.maxRetries = job.maxRetries := by
  unfold swept; split <;> rfl

@[simp] theorem createdAt_swept (job : Job) : job.swept.createdAt = job.createdAt := by
  unfold swept; split <;> rfl

theorem swept_of_not_lapsed {job : Job} (h : job.lapsed = false) : job.swept = job := by
  simp [swept, h]

theorem due_eq (job : Job) : job.due = decide (job.swept.status = .pending) := by
  by_cases h : job.lapsed = true
  · simp [due, swept, h]
  · simp only [Bool.not_eq_true] at h
    rw [swept_of_not_lapsed h, due, h, Bool.or_false]

/-- No report leaves a job that a sweep would send back: the report has done so itself. -/
theorem lapsed_reported (result : WorkResult) (job : Job) :
    (job.reported result).lapsed = false := by
  cases result with
  | success => rfl
  | failure reason =>
    by_cases h : job.retryable = true
    · simp [reported, lapsed, verdict, h, Verdict.status]
    · simp only [Bool.not_eq_true] at h
      have h' : ({ job with status := Status.failed, lastError := some reason } : Job).retryable =
          false := h
      simp [reported, lapsed, verdict, h, Verdict.status, h']

theorem spent_reported_failure (reason : String) (job : Job) :
    (job.reported (.failure reason)).spent = decide (job.verdict = .exhausted) := by
  by_cases h : job.retryable = true
  · simp [reported, spent, verdict, h, Verdict.status]
  · simp only [Bool.not_eq_true] at h
    have h' : ({ job with status := Status.failed, lastError := some reason } : Job).retryable =
        false := h
    simp [reported, spent, verdict, h, Verdict.status, h']

@[simp] theorem spent_swept (job : Job) : job.swept.spent = job.spent := by
  by_cases h : job.lapsed = true
  · have h' := h
    simp only [lapsed, Bool.and_eq_true, decide_eq_true_eq] at h'
    simp [swept, h, spent, h'.2]
  · simp only [Bool.not_eq_true] at h
    rw [swept_of_not_lapsed h]

/-- After a sweep nothing is left that a sweep would send back. -/
@[simp] theorem lapsed_swept (job : Job) : job.swept.lapsed = false := by
  by_cases h : job.lapsed = true
  · simp [swept, h]; simp [lapsed]
  · simp only [Bool.not_eq_true] at h
    rw [swept_of_not_lapsed h, h]

theorem lapsed_started (job : Job) : job.started.lapsed = false := rfl

/-! ## Counting attempts -/

/-- Attempts are counted up to the greatest word. -/
theorem toNat_saturatingSucc (n : UInt32) :
    (saturatingSucc n).toNat = min (n.toNat + 1) 4294967295 := by
  unfold saturatingSucc
  split
  · rename_i h; subst h; rfl
  · rename_i h
    have hn : n.toNat ≠ 4294967295 := by intro h'; exact h (UInt32.toNat_inj.1 h')
    have hlt := n.toNat_lt
    rw [UInt32.toNat_add]
    have h1 : (1 : UInt32).toNat = 1 := rfl
    rw [h1]; omega

theorem retryable_iff {job : Job} :
    job.retryable = true ↔ job.attempts.toNat ≤ job.maxRetries.toNat := by
  simp [retryable, retryEligible, UInt32.le_iff_toNat_le]

/-! ## The guarded changes -/

theorem claimed_of_pending {job : Job} (h : job.status = .pending) :
    job.claimed = .ok job.started := by
  simp [claimed, moveTo, h, Status.canMoveTo, started, bind, Except.bind, pure, Except.pure]

theorem claimed_of_not_pending {job : Job} (h : job.status ≠ .pending) :
    job.claimed = .error (.invalidTransition job.id job.status .processing) := by
  cases hs : job.status <;> simp_all [claimed, moveTo, Status.canMoveTo, bind, Except.bind]

theorem succeeded_of_processing {job : Job} (h : job.status = .processing) :
    job.succeeded = .ok (job.reported .success) := by
  simp [succeeded, moveTo, h, Status.canMoveTo, reported]

theorem succeeded_of_not_processing {job : Job} (h : job.status ≠ .processing) :
    job.succeeded = .error (.invalidTransition job.id job.status .completed) := by
  cases hs : job.status <;> simp_all [succeeded, moveTo, Status.canMoveTo]

theorem failedWith_of_processing {job : Job} (h : job.status = .processing) (reason : String) :
    job.failedWith reason = .ok (job.verdict, job.reported (.failure reason)) := by
  have hr : ({ job with status := Status.failed, lastError := some reason } : Job).retryable =
      job.retryable := rfl
  by_cases h' : job.retryable = true
  · simp [failedWith, moveTo, h, Status.canMoveTo, reported, verdict, Verdict.status, bind,
      Except.bind, pure, Except.pure, hr, h']
  · simp [failedWith, moveTo, h, Status.canMoveTo, reported, verdict, Verdict.status, bind,
      Except.bind, pure, Except.pure, hr, h']

theorem failedWith_of_not_processing {job : Job} (h : job.status ≠ .processing) (reason : String) :
    job.failedWith reason = .error (.invalidTransition job.id job.status .failed) := by
  cases hs : job.status <;> simp_all [failedWith, moveTo, Status.canMoveTo, bind, Except.bind]

theorem recovered_eq (job : Job) : job.recovered = .ok (job.lapsed, job.swept) := by
  by_cases hs : job.status = .failed
  · by_cases hr : job.retryable = true
    · simp [recovered, lapsed, swept, hs, hr, moveTo, Status.canMoveTo, Except.map]
    · simp [recovered, lapsed, swept, hs, hr]
  · simp [recovered, lapsed, swept, hs]

end Job
end JobPipeline
