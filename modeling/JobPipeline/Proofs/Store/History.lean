import JobPipeline.Proofs.Store.Records

/-!
# The history of a record

Anybody may call any `Operation` of the store at any time; refused ones change nothing.
`Store.history` lists what the accepted ones did to the record of one id. From the moment a pending,
unclaimed record is created, only four things can happen to it, each in one state only: `Course` is
that history, one constructor for each. What is said of all histories (`Orderly`) is proved by
induction on it.

A sweep has no constructor. It only takes up failed jobs that could be retried, and a report never
leaves a job so.
-/

namespace JobPipeline

/-- An operation of the store. -/
inductive Operation
  | create (job : Job) (cancelled : Bool)
  | claim (id : JobId)
  | succeed (id : JobId)
  | fail (id : JobId) (reason : String)
  | recover (cancelled : Bool)
deriving DecidableEq, Repr

/-- What an accepted operation did to a record. -/
inductive Happening
  /-- It was claimed, and the claim returned this snapshot. -/
  | claimed (snapshot : Job)
  | succeeded
  | failed (verdict : Verdict) (reason : String)
  | recovered
deriving DecidableEq, Repr

/-- A happening by its kind. -/
inductive Mark
  | claim
  | success
  | retry
  | exhausted
  | recovery
deriving DecidableEq, Repr

namespace Happening

def mark : Happening → Mark
  | .claimed _ => .claim
  | .succeeded => .success
  | .failed .retry _ => .retry
  | .failed .exhausted _ => .exhausted
  | .recovered => .recovery

def snapshot? : Happening → Option Job
  | .claimed snapshot => some snapshot
  | _ => none

def reason? : Happening → Option String
  | .failed _ reason => some reason
  | _ => none

end Happening

namespace Operation

/-- Whether the operation creates a record under the id. -/
def creates (id : JobId) : Operation → Bool
  | .create job cancelled => job.id = id && !cancelled
  | _ => false

/-- What the operation does to the record of an id. -/
def happening (id : JobId) (s : Store) : Operation → Option Happening
  | .create _ _ => none
  | .claim id' => if id' = id then (s.claim id').map fun r => .claimed r.1 else none
  | .succeed id' => if id' = id then match s.reportSuccess id' with
    | .ok _ => some .succeeded
    | .error _ => none
    else none
  | .fail id' reason => if id' = id then match s.reportFailure id' reason with
    | .ok (verdict, _) => some (.failed verdict reason)
    | .error _ => none
    else none
  | .recover cancelled => match s.recoverEligible cancelled with
    | .ok (_, s') => if s'.get? id = s.get? id then none else some .recovered
    | .error _ => none

end Operation

namespace Store

def apply (s : Store) : Operation → Store
  | .create job cancelled => match s.create job cancelled with
    | .ok s' => s'
    | .error _ => s
  | .claim id => match s.claim id with
    | some (_, s') => s'
    | none => s
  | .succeed id => match s.reportSuccess id with
    | .ok s' => s'
    | .error _ => s
  | .fail id reason => match s.reportFailure id reason with
    | .ok (_, s') => s'
    | .error _ => s
  | .recover cancelled => match s.recoverEligible cancelled with
    | .ok (_, s') => s'
    | .error _ => s

def applyAll (s : Store) (ops : List Operation) : Store := ops.foldl apply s

/-- What happens to the record of an id in a list of operations. -/
def history (id : JobId) : List Operation → Store → List Happening
  | [], _ => []
  | op :: ops, s => (op.happening id s).toList ++ history id ops (s.apply op)

end Store

/-! ## One operation -/

/-- What can happen to a record of which no sweep takes hold, and what becomes of it. -/
inductive Change : Job → Happening → Job → Prop
  | claim {job : Job} (pending : job.status = .pending) :
      Change job (.claimed job.started) job.started
  | success {job : Job} (processing : job.status = .processing) :
      Change job .succeeded (job.reported .success)
  | failure {job : Job} (processing : job.status = .processing) (reason : String) :
      Change job (.failed job.verdict reason) (job.reported (.failure reason))

theorem Change.id_eq {job job' : Job} {e : Happening} (h : Change job e job') :
    job'.id = job.id := by
  cases h <;> rfl

theorem Change.not_lapsed {job job' : Job} {e : Happening} (h : Change job e job') :
    job'.lapsed = false := by
  cases h with
  | claim => exact Job.lapsed_started _
  | success => exact Job.lapsed_reported _ _
  | failure => exact Job.lapsed_reported _ _

namespace Store

/-- An operation as it is seen on the look-ups: it is refused, or it changes one record, or it
creates one, or it is a sweep. -/
inductive Performs (s : Store) (op : Operation) : Prop
  | refused (same : s.apply op = s) (silent : ∀ id, op.happening id s = none)
  | changed {old new : Job} {e : Happening} (found : s.get? old.id = some old)
      (change : Change old e new) (wrote : s.apply op = s.set old.id new)
      (told : ∀ id, op.happening id s = if old.id = id then some e else none)
  | created {job : Job} (isCreation : op = .create job false)
      (wrote : s.create job false = .ok (s.apply op))
  | swept (wrote : s.apply op = s.swept)
      (told : ∀ id, op.happening id s =
        if s.swept.get? id = s.get? id then none else some .recovered)

theorem performs (s : Store) (op : Operation) : s.Performs op := by
  cases op with
  | create job cancelled =>
    cases cancelled with
    | true => exact .refused rfl fun _ => rfl
    | false => exact .created rfl rfl
  | claim id =>
    cases hc : s.claim id with
    | none => exact .refused (by simp [apply, hc]) (by simp [Operation.happening, hc])
    | some r =>
      obtain ⟨snapshot, s'⟩ := r
      obtain ⟨old, hold, hp, rfl, rfl⟩ := claim_eq_some_iff.1 hc
      obtain rfl := id_of_get? hold
      exact .changed hold (.claim hp) (by simp [apply, hc]) (by simp [Operation.happening, hc])
  | succeed id =>
    cases hr : s.reportSuccess id with
    | error e => exact .refused (by simp [apply, hr]) (by simp [Operation.happening, hr])
    | ok s' =>
      obtain ⟨old, hold, hp, rfl⟩ := reportSuccess_eq_ok_iff.1 hr
      obtain rfl := id_of_get? hold
      exact .changed hold (.success hp) (by simp [apply, hr]) (by simp [Operation.happening, hr])
  | fail id reason =>
    cases hr : s.reportFailure id reason with
    | error e => exact .refused (by simp [apply, hr]) (by simp [Operation.happening, hr])
    | ok r =>
      obtain ⟨verdict, s'⟩ := r
      obtain ⟨old, hold, hp, rfl, rfl⟩ := reportFailure_eq_ok_iff.1 hr
      obtain rfl := id_of_get? hold
      exact .changed hold (.failure hp reason) (by simp [apply, hr])
        (by simp [Operation.happening, hr])
  | recover cancelled =>
    cases cancelled with
    | true => exact .refused rfl fun _ => rfl
    | false =>
      exact .swept (by simp [apply, recoverEligible_eq])
        (by simp [Operation.happening, recoverEligible_eq])

end Store

/-! ## The course of a record -/

/-- What can happen to a record from its creation on, and what has become of the record then. -/
inductive Course (origin : Job) : List Happening → Job → Prop
  | created : Course origin [] origin
  | next {h : List Happening} {job job' : Job} {e : Happening} (course : Course origin h job)
      (change : Change job e job') : Course origin (h ++ [e]) job'

namespace Course

variable {origin job : Job} {h : List Happening}

/-- A sweep finds nothing to do. -/
theorem not_lapsed (course : Course origin h job) (pending : origin.status = .pending) :
    job.lapsed = false := by
  cases course with
  | created => simp [Job.lapsed, pending]
  | next _ change => exact change.not_lapsed

/-- One operation takes a record along its course, whether it is accepted or not. -/
theorem step (course : Course origin h job) (pending : origin.status = .pending) {s : Store}
    (hget : s.get? origin.id = some job) {op : Operation} (once : op.creates origin.id = false) :
    ∃ job', (s.apply op).get? origin.id = some job' ∧
      Course origin (h ++ (op.happening origin.id s).toList) job' := by
  have stays (hs : (s.apply op).get? origin.id = some job)
      (silent : op.happening origin.id s = none) :
      ∃ job', (s.apply op).get? origin.id = some job' ∧
        Course origin (h ++ (op.happening origin.id s).toList) job' :=
    ⟨job, hs, by simpa [silent] using course⟩
  cases s.performs op with
  | refused same silent => exact stays (by rw [same]; exact hget) (silent _)
  | @changed old new e found change wrote told =>
    by_cases hsame : old.id = origin.id
    · rw [hsame] at found
      obtain rfl : job = old := Option.some.inj (hget.symm.trans found)
      refine ⟨new, ?_, ?_⟩
      · rw [wrote, hsame]
        exact Store.get?_set_self (change.id_eq.trans hsame) hget
      · rw [told, if_pos hsame]
        exact course.next change
    · refine stays ?_ (by rw [told, if_neg hsame])
      rw [wrote, Store.get?_set_of_ne change.id_eq (Ne.symm hsame)]
      exact hget
  | @created other isCreation wrote =>
    subst isCreation
    have hne : origin.id ≠ other.id := fun h => by simp [Operation.creates, h] at once
    exact stays (by rw [Store.get?_create wrote, if_neg hne]; exact hget) rfl
  | swept wrote told =>
    have hswept : s.swept.get? origin.id = some job := by
      rw [Store.get?_swept, hget, Option.map_some,
        Job.swept_of_not_lapsed (course.not_lapsed pending)]
    exact stays (by rw [wrote]; exact hswept) (by rw [told, hswept, hget, if_pos rfl])

theorem run (course : Course origin h job) (pending : origin.status = .pending) {s : Store}
    (hget : s.get? origin.id = some job) {ops : List Operation}
    (once : ∀ op ∈ ops, op.creates origin.id = false) :
    ∃ job', (s.applyAll ops).get? origin.id = some job' ∧
      Course origin (h ++ Store.history origin.id ops s) job' := by
  induction ops generalizing s h job with
  | nil => exact ⟨job, hget, by simpa [Store.history] using course⟩
  | cons op ops ih =>
    obtain ⟨job₁, hget₁, course₁⟩ := course.step pending hget (once op List.mem_cons_self)
    obtain ⟨job₂, hget₂, course₂⟩ := ih course₁ hget₁ fun o ho => once o (List.mem_cons_of_mem _ ho)
    exact ⟨job₂, hget₂, by simpa [Store.history] using course₂⟩

end Course

/-! ## What all histories have in common -/

/-- The marks that follow the last retry. -/
def Status.ending : Status → List Mark
  | .pending => []
  | .processing => [.claim]
  | .completed => [.claim, .success]
  | .failed => [.claim, .exhausted]

/-- What a history has to do with the record it belongs to.

  * `word`      — claims and retries take turns; what follows the last retry is the status.
  * `undisturbed` — no sweep has changed the record.
  * `snapshots` — the claims count the attempts, up to the greatest word.
  * `attempts`  — so does the record.
  * `lastError` — the record keeps the reason of the latest failure, or what it was created with. -/
structure Orderly (origin : Job) (h : List Happening) (job : Job) : Prop where
  word : ∃ n, h.map Happening.mark =
    (List.replicate n [Mark.claim, Mark.retry]).flatten ++ job.status.ending
  undisturbed : Happening.recovered ∉ h
  snapshots : ∀ i snapshot, (h.filterMap Happening.snapshot?)[i]? = some snapshot →
    snapshot.status = .processing ∧ snapshot.attempts.toNat = min (i + 1) (2 ^ 32 - 1)
  attempts : job.attempts.toNat = min (h.filterMap Happening.snapshot?).length (2 ^ 32 - 1)
  lastError : job.lastError = (h.filterMap Happening.reason?).getLast?.or origin.lastError

theorem Orderly.next {origin job job' : Job} {h : List Happening} {e : Happening}
    (orderly : Orderly origin h job) (change : Change job e job') :
    Orderly origin (h ++ [e]) job' := by
  obtain ⟨n, hword⟩ := orderly.word
  have hattempts := orderly.attempts
  have hlast := orderly.lastError
  cases change with
  | claim pending =>
    have hcount : job.started.attempts.toNat =
        min ((h.filterMap Happening.snapshot?).length + 1) (2 ^ 32 - 1) := by
      have := Job.toNat_saturatingSucc job.attempts
      simp only [Job.started, this]; omega
    refine ⟨⟨n, ?_⟩, ?_, ?_, ?_, ?_⟩
    · simp [hword, pending, Happening.mark, Status.ending]
    · simpa using orderly.undisturbed
    · intro i snapshot hi
      simp only [List.filterMap_append, List.getElem?_append] at hi
      split at hi
      · exact orderly.snapshots i snapshot hi
      · rename_i hle
        have hlt := (List.getElem?_eq_some_iff.1 hi).1
        simp only [Happening.snapshot?, List.filterMap_cons, List.filterMap_nil,
          List.length_singleton] at hlt hi
        obtain rfl : i = (h.filterMap Happening.snapshot?).length := by omega
        rw [Nat.sub_self, List.getElem?_cons_zero, Option.some.injEq] at hi
        subst hi
        exact ⟨rfl, hcount⟩
    · simpa [List.filterMap_cons, Happening.snapshot?] using hcount
    · simpa [List.filterMap_cons, Happening.reason?, Job.started] using hlast
  | success processing =>
    refine ⟨⟨n, ?_⟩, ?_, ?_, ?_, ?_⟩
    · simp [hword, processing, Happening.mark, Status.ending, Job.reported]
    · simpa using orderly.undisturbed
    · simpa [List.filterMap_cons, Happening.snapshot?] using orderly.snapshots
    · simpa [List.filterMap_cons, Happening.snapshot?] using hattempts
    · simpa [List.filterMap_cons, Happening.reason?, Job.reported] using hlast
  | failure processing reason =>
    refine ⟨?_, ?_, ?_, ?_, ?_⟩
    · cases hv : job.verdict with
      | retry =>
        refine ⟨n + 1, ?_⟩
        simp [hword, processing, Happening.mark, Status.ending, Job.reported, hv, Verdict.status,
          List.replicate_succ']
      | exhausted =>
        refine ⟨n, ?_⟩
        simp [hword, processing, Happening.mark, Status.ending, Job.reported, hv, Verdict.status]
    · simpa using orderly.undisturbed
    · simpa [List.filterMap_cons, Happening.snapshot?] using orderly.snapshots
    · simpa [List.filterMap_cons, Happening.snapshot?] using hattempts
    · simp [Happening.reason?, Job.reported]

/-- **All courses of a new record are orderly.** -/
theorem Course.orderly {origin job : Job} {h : List Happening} (course : Course origin h job)
    (new : origin.isNew = true) : Orderly origin h job := by
  obtain ⟨pending, unclaimed⟩ : origin.status = .pending ∧ origin.attempts = 0 := by
    simpa [Job.isNew] using new
  induction course with
  | created =>
    refine ⟨⟨0, by simp [pending, Status.ending]⟩, by simp, by simp, by simp [unclaimed], by simp⟩
  | next _ change ih => exact ih.next change

end JobPipeline
