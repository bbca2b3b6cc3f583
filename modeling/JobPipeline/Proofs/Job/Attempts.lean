import JobPipeline.Proofs.Job.Changes
import JobPipeline.Worker.Executor
import Mathlib

/-!
# Where the attempts at a job lead

Suppose the result of an attempt depends on nothing but the kind of the job, its payload and the
number of the attempt. Then one whole attempt, from claim to report, is a function of the record
(`Job.attempted`), and what a job comes to is settled when it is created: `Job.Destined` says that a
record is what some number of attempts have made of the record as it was created, perhaps with one
more attempt under way. Two destined records of one errand that are both settled agree on everything
the attempts decide.
-/

namespace JobPipeline

/-- Results that depend on the kind of a job, its payload and the number of the attempt. -/
abbrev Work := String → List UInt8 → UInt32 → WorkResult

def Work.on (work : Work) (job : Job) : WorkResult := work job.kind job.payload job.attempts

namespace Executor

/-- The workloads give the results of `work`. -/
def Gives (work : Work) (exec : Executor) : Prop := ∀ job, (exec job).ending = .result (work.on job)

def simulatedWork (failingKind : String) : Work := fun kind _ _ =>
  if kind = failingKind then .failure (alwaysFails kind) else .success

theorem simulated_gives (latency : Nat) (failingKind : String) :
    (simulated latency failingKind).Gives (simulatedWork failingKind) := fun _ => rfl

end Executor

namespace Job

/-- The record as it was created. -/
def renewed (job : Job) : Job := { job with status := .pending, attempts := 0, lastError := none }

/-- The record after one more attempt, if there is to be one. -/
def attempted (work : Work) (job : Job) : Job :=
  if job.status = .pending then job.started.reported (work.on job.started) else job

/-- Neither waiting for an attempt nor at one. -/
def Settled (job : Job) : Prop := job.status ≠ .pending ∧ job.status ≠ .processing

/-- The record between two attempts, or with one under way. -/
def Destined (work : Work) (job : Job) : Prop :=
  ∃ k, job = (attempted work)^[k] job.renewed ∨
    ((attempted work)^[k] job.renewed).status = .pending ∧
      job = ((attempted work)^[k] job.renewed).started

/-- How often the job has been given another attempt. -/
def retries (job : Job) : Nat :=
  if job.status = .pending then job.attempts.toNat else job.attempts.toNat - 1

variable {work : Work} {job : Job}

@[simp] theorem renewed_started (job : Job) : job.started.renewed = job.renewed := rfl

@[simp] theorem renewed_reported (result : WorkResult) (job : Job) :
    (job.reported result).renewed = job.renewed := by
  cases result <;> rfl

theorem attempted_of_pending (h : job.status = .pending) :
    job.attempted work = job.started.reported (work.on job.started) := if_pos h

theorem attempted_of_not_pending (h : job.status ≠ .pending) : job.attempted work = job := if_neg h

/-- A new record without a failure is as it was created. -/
theorem renewed_of_isNew (new : job.isNew = true) (clean : job.lastError = none) :
    job.renewed = job := by
  simp only [isNew, Bool.and_eq_true, decide_eq_true_eq] at new
  rw [renewed, ← new.1, ← new.2, ← clean]

/-! ## Records between attempts -/

/-- After an attempt nobody is at the job any more. -/
theorem status_iterate_ne_processing (job : Job) (k : Nat) :
    ((attempted work)^[k] job.renewed).status ≠ .processing := by
  induction k with
  | zero => exact nofun
  | succ k ih =>
    rw [Function.iterate_succ_apply']
    by_cases h : ((attempted work)^[k] job.renewed).status = .pending
    · rw [attempted_of_pending h]
      cases work.on ((attempted work)^[k] job.renewed).started with
      | success => exact nofun
      | failure reason =>
        show Verdict.status _ ≠ _
        cases verdict _ <;> exact nofun
    · rw [attempted_of_not_pending h]; exact ih

/-! ## Destined records -/

theorem destined_of_renewed (h : job.renewed = job) : job.Destined work := ⟨0, .inl h.symm⟩

theorem Destined.started (h : job.Destined work) (pending : job.status = .pending) :
    job.started.Destined work := by
  obtain ⟨k, hk | ⟨-, hk⟩⟩ := h
  · refine ⟨k, .inr ⟨?_, ?_⟩⟩
    · rw [renewed_started, ← hk]; exact pending
    · rw [renewed_started, ← hk]
  · rw [hk] at pending; cases pending

theorem Destined.reported (h : job.Destined work) (processing : job.status = .processing) :
    (job.reported (work.on job)).Destined work := by
  obtain ⟨k, hk | ⟨pending, hk⟩⟩ := h
  · rw [hk] at processing; exact absurd processing (status_iterate_ne_processing job k)
  · refine ⟨k + 1, .inl ?_⟩
    rw [renewed_reported, Function.iterate_succ_apply', attempted_of_pending pending, ← hk]

/-! ## Retries -/

/-- A claim is no retry, as long as the attempts can be counted. -/
theorem retries_started (pending : job.status = .pending) (room : job.attempts.toNat < 4294967295) :
    job.started.retries = job.retries := by
  have hcount := toNat_saturatingSucc job.attempts
  simp only [retries, pending, if_true, started, hcount]
  simp only [reduceCtorEq, if_false]
  omega

/-- A report is a retry if it sends the job back. -/
theorem retries_reported (processing : job.status = .processing) (pos : 0 < job.attempts.toNat)
    (result : WorkResult) :
    (job.reported result).retries =
      job.retries + (decide ((job.reported result).status = .pending)).toNat := by
  have hjob : job.retries = job.attempts.toNat - 1 := by simp [retries, processing]
  by_cases h : (job.reported result).status = .pending
  · simp only [retries, h, if_true, attempts_reported, decide_true, Bool.toNat_true] at hjob ⊢
    omega
  · simp only [retries, h, if_false, attempts_reported, decide_false, Bool.toNat_false] at hjob ⊢
    omega

/-! ## Settled records -/

/-- The job under another name, created at another time. -/
def relabelled (id : JobId) (createdAt : Instant) (job : Job) : Job := { job with id, createdAt }

theorem attempted_relabelled (id : JobId) (createdAt : Instant) (job : Job) :
    (job.relabelled id createdAt).attempted work =
      (job.attempted work).relabelled id createdAt := by
  by_cases h : job.status = .pending
  · have h' : (job.relabelled id createdAt).status = .pending := h
    rw [attempted_of_pending h, attempted_of_pending h']
    have hwork : work.on (job.relabelled id createdAt).started = work.on job.started := rfl
    rw [hwork]
    cases work.on job.started <;> rfl
  · have h' : (job.relabelled id createdAt).status ≠ .pending := h
    rw [attempted_of_not_pending h, attempted_of_not_pending h']

theorem iterate_relabelled (id : JobId) (createdAt : Instant) (job : Job) (k : Nat) :
    (attempted work)^[k] (job.relabelled id createdAt) =
      ((attempted work)^[k] job).relabelled id createdAt := by
  have hone : Function.Semiconj (relabelled id createdAt) (attempted work) (attempted work) :=
    fun job => (attempted_relabelled id createdAt job).symm
  exact (hone.iterate_right k job).symm

/-- As they were created, jobs of one errand differ by their label only. -/
theorem renewed_relabelled {a b : Job} (same : a.errand = b.errand) :
    a.renewed = b.renewed.relabelled a.id a.createdAt := by
  obtain ⟨kind, payload, maxRetries⟩ : a.kind = b.kind ∧ a.payload = b.payload ∧
      a.maxRetries = b.maxRetries := by
    simpa [errand] using same
  simp [renewed, relabelled, kind, payload, maxRetries]

/-- More attempts change nothing of a settled record. -/
theorem iterate_settled (h : job.Settled) (k : Nat) : (attempted work)^[k] job = job :=
  Function.iterate_fixed (attempted_of_not_pending h.1) k

theorem Destined.iterate_of_settled (h : job.Destined work) (settled : job.Settled) :
    ∃ k, job = (attempted work)^[k] job.renewed := by
  obtain ⟨k, hk | ⟨-, hk⟩⟩ := h
  · exact ⟨k, hk⟩
  · rw [hk] at settled; exact absurd rfl settled.2

/-- However many attempts it took, a record settles in one way only. -/
theorem settled_unique {k l : Nat} (hk : ((attempted work)^[k] job).Settled)
    (hl : ((attempted work)^[l] job).Settled) :
    (attempted work)^[k] job = (attempted work)^[l] job := by
  rcases Nat.le_total k l with h | h
  · rw [← Nat.sub_add_cancel h, Function.iterate_add_apply, iterate_settled hk]
  · rw [← Nat.sub_add_cancel h, Function.iterate_add_apply, iterate_settled hl]

/-- **Settled records of one errand agree on status, attempts and error.** -/
theorem Destined.agree {a b : Job} (ha : a.Destined work) (hb : b.Destined work)
    (settledA : a.Settled) (settledB : b.Settled) (same : a.errand = b.errand) :
    a.status = b.status ∧ a.attempts = b.attempts ∧ a.lastError = b.lastError := by
  obtain ⟨k, hk⟩ := ha.iterate_of_settled settledA
  obtain ⟨l, hl⟩ := hb.iterate_of_settled settledB
  rw [renewed_relabelled same, iterate_relabelled] at hk
  have hsettled : ((attempted work)^[k] b.renewed).Settled := by rw [hk] at settledA; exact settledA
  rw [hl] at settledB
  have heq : (attempted work)^[k] b.renewed = b := (settled_unique hsettled settledB).trans hl.symm
  rw [heq] at hk
  rw [hk]
  exact ⟨rfl, rfl, rfl⟩

end Job
end JobPipeline
