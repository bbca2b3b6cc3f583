import JobPipeline.Proofs.Store.History

/-!
# What an operation may do

Every operation on jobs that exist is a legal step. It touches one record at most, or, as a sweep,
those that it sends back. Of a record it touches the status, the attempts and the last error, each
for a reason of its own (`Legal`). What it answers tells exactly what it found (`Answers`).

An operation changes its record in place, one field after the other, and each move between states
may be refused. `InPlace` is that way of working: a refusal keeps what has been changed so far. It
makes no difference here, as the only refusal there is comes before the first change (`Atomic`). So
the store is as it was whenever an operation is refused (`operations_are_legal`).
-/

namespace JobPipeline

/-! ## Changes in place -/

/-- A computation that changes something in place. A refusal leaves it as it is by then. -/
abbrev InPlace (σ α : Type) := ExceptT JobError (StateM σ) α

namespace InPlace

variable {σ α β : Type}

/-- The answer, and what has become of the thing changed. -/
def perform (change : InPlace σ α) (s : σ) : Except JobError α × σ := change.run.run s

/-- The same for a function that gives a new value, or refuses and leaves the old one alone. -/
def settle (s : σ) : Except JobError (α × σ) → Except JobError α × σ
  | .ok (answer, s') => (.ok answer, s')
  | .error e => (.error e, s)

/-- Changing in place comes to the same as a function that changes all or nothing. -/
def Atomic (change : InPlace σ α) (f : σ → Except JobError (α × σ)) : Prop :=
  ∀ s, change.perform s = settle s (f s)

section
variable {s s' : σ}

theorem perform_get (s : σ) : (get : InPlace σ σ).perform s = (.ok s, s) := rfl

theorem perform_modify (f : σ → σ) (s : σ) :
    (modify f : InPlace σ Unit).perform s = (.ok (), f s) := rfl

theorem perform_bind_ok {change : InPlace σ α} {a : α} (h : change.perform s = (.ok a, s'))
    (next : α → InPlace σ β) : (change >>= next).perform s = (next a).perform s' := by
  have ran : StateT.run (ExceptT.run change) s = pure (.ok a, s') := h
  rw [perform, ExceptT.run_bind, StateT.run_bind, ran]
  rfl

theorem perform_bind_error {change : InPlace σ α} {e : JobError}
    (h : change.perform s = (.error e, s')) (next : α → InPlace σ β) :
    (change >>= next).perform s = (.error e, s') := by
  have ran : StateT.run (ExceptT.run change) s = pure (.error e, s') := h
  rw [perform, ExceptT.run_bind, StateT.run_bind, ran]
  rfl

end

end InPlace

open InPlace

/-! ## One record -/

namespace Job

/-- Moves the job to another state, if the transition table allows the move. -/
def transition (target : Status) : InPlace Job Unit := do
  let job ← get
  if job.status.canMoveTo target then set { job with status := target }
  else throw (.invalidTransition job.id job.status target)

def claiming : InPlace Job Job := do
  transition .processing
  modify fun job => { job with attempts := saturatingSucc job.attempts }
  get

def succeeding : InPlace Job Unit := transition .completed

def failing (reason : String) : InPlace Job Verdict := do
  transition .failed
  modify fun job => { job with lastError := some reason }
  let job ← get
  if job.retryable then do
    transition .pending
    return .retry
  else
    return .exhausted

/-- Tells whether the job has been sent back. -/
def recovering : InPlace Job Bool := do
  let job ← get
  if job.status = .failed ∧ job.retryable then do
    transition .pending
    return true
  else
    return false

theorem transition_of_allowed (job : Job) (target : Status)
    (h : job.status.canMoveTo target = true) :
    (transition target).perform job = (.ok (), { job with status := target }) := by
  rw [transition, perform_bind_ok (perform_get job), if_pos h]
  rfl

theorem transition_of_forbidden (job : Job) (target : Status)
    (h : job.status.canMoveTo target = false) :
    (transition target).perform job =
      (.error (.invalidTransition job.id job.status target), job) := by
  rw [transition, perform_bind_ok (perform_get job), h]
  rfl

theorem atomic_claiming : Atomic claiming fun job => job.claimed.map fun job => (job, job) := by
  intro job
  show _ = settle job (job.claimed.map fun job => (job, job))
  by_cases pending : job.status = .pending
  · have moved := transition_of_allowed job .processing (by rw [pending]; rfl)
    rw [claimed_of_pending pending, claiming, perform_bind_ok moved,
      perform_bind_ok (perform_modify _ _), perform_get]
    rfl
  · have refused := transition_of_forbidden job .processing
      (by revert pending; cases job.status <;> simp [Status.canMoveTo])
    rw [claimed_of_not_pending pending, claiming, perform_bind_error refused]
    rfl

theorem atomic_succeeding : Atomic succeeding fun job => job.succeeded.map ((), ·) := by
  intro job
  show _ = settle job (job.succeeded.map ((), ·))
  by_cases processing : job.status = .processing
  · rw [succeeded_of_processing processing]
    exact transition_of_allowed job .completed (by rw [processing]; rfl)
  · rw [succeeded_of_not_processing processing]
    exact transition_of_forbidden job .completed
      (by revert processing; cases job.status <;> simp [Status.canMoveTo])

/-- The first move may be refused, the second may not: a job that has just failed may go back. -/
theorem atomic_failing (reason : String) : Atomic (failing reason) (failedWith reason) := by
  intro job
  by_cases processing : job.status = .processing
  · have failed := transition_of_allowed job .failed (by rw [processing]; rfl)
    rw [failedWith_of_processing processing, failing, perform_bind_ok failed,
      perform_bind_ok (perform_modify _ _), perform_bind_ok (perform_get _)]
    by_cases retryable : job.retryable = true
    · have again : ({ job with status := .failed, lastError := some reason } : Job).retryable :=
        retryable
      have back := transition_of_allowed { job with status := .failed, lastError := some reason }
        .pending rfl
      rw [if_pos again, perform_bind_ok back, verdict, reported, verdict, if_pos retryable]
      rfl
    · have last : ¬ ({ job with status := .failed, lastError := some reason } : Job).retryable :=
        retryable
      rw [if_neg last, verdict, reported, verdict, if_neg retryable]
      rfl
  · have refused := transition_of_forbidden job .failed
      (by revert processing; cases job.status <;> simp [Status.canMoveTo])
    rw [failedWith_of_not_processing processing, failing, perform_bind_error refused]
    rfl

theorem perform_recovering (job : Job) : recovering.perform job = (.ok job.lapsed, job.swept) := by
  rw [recovering, perform_bind_ok (perform_get job)]
  by_cases lapsed : job.status = .failed ∧ job.retryable = true
  · have isLapsed : job.lapsed = true := by simp [Job.lapsed, lapsed]
    have back := transition_of_allowed job .pending (by rw [lapsed.1]; rfl)
    rw [if_pos lapsed, perform_bind_ok back, swept, isLapsed]
    rfl
  · have notLapsed : job.lapsed = false := by simpa [Job.lapsed] using lapsed
    rw [if_neg lapsed, swept_of_not_lapsed notLapsed, notLapsed]
    rfl

end Job

namespace Store

/-! ## The store in place -/

/-- Changes the record of an id in place. -/
def within {α : Type} (id : JobId) (change : InPlace Job α) : InPlace Store α :=
  ExceptT.mk fun s => match s.get? id with
    | none => (.error (.notFound id), s)
    | some job =>
      let (answer, job) := change.perform job
      (answer, s.set id job)

/-- A claim in place. Whatever it is refused for, it hands out nothing. -/
def claiming (id : JobId) : InPlace Store (Option Job) :=
  ExceptT.mk fun s => match (within id Job.claiming).perform s with
    | (.ok job, s) => (.ok (some job), s)
    | (.error _, s) => (.ok none, s)

/-- Goes through entries and sends the lapsed jobs back, up to the first refusal. -/
def recoverInPlace : List Entry → Except JobError Nat × List Entry
  | [] => (.ok 0, [])
  | e :: rest => match Job.recovering.perform e.job with
    | (.error refusal, job) => (.error refusal, { e with job } :: rest)
    | (.ok moved, job) =>
      let (n, rest) := recoverInPlace rest
      (n.map (· + moved.toNat), { e with job } :: rest)

def recovering (cancelled : Bool) : InPlace Store Nat :=
  if cancelled then throw .cancelled
  else ExceptT.mk fun s =>
    let (n, entries) := recoverInPlace s.entries
    (n, { s with entries })

/-- Carried out in place, each operation does all that it should or nothing. -/
structure AllOrNothing (s : Store) : Prop where
  claim : ∀ id, (claiming id).perform s = (.ok ((s.claim id).map Prod.fst), s.apply (.claim id))
  success : ∀ id, (within id Job.succeeding).perform s =
    settle s ((s.reportSuccess id).map ((), ·))
  failure : ∀ id reason, (within id (Job.failing reason)).perform s =
    settle s (s.reportFailure id reason)
  sweep : ∀ cancelled, (recovering cancelled).perform s = settle s (s.recoverEligible cancelled)

section
variable {s : Store} {id : JobId} {job : Job}

/-- Writing what is there already changes nothing. -/
theorem Distinct.set_self (h : s.Distinct) (found : s.get? id = some job) : s.set id job = s := by
  have same : (s.entries.map fun e => if e.job.id = id then { e with job } else e) = s.entries := by
    conv_rhs => rw [← List.map_id' s.entries]
    apply List.map_congr_left
    intro e he
    by_cases hid : e.job.id = id
    · have found' := h.get?_of_mem he
      rw [hid, found] at found'
      rw [if_pos hid, Option.some.inj found']
    · rw [if_neg hid]
  rw [Store.set, same]

theorem Distinct.perform_within {α : Type} (h : s.Distinct) (id : JobId) {change : InPlace Job α}
    {f : Job → Except JobError (α × Job)} (atomic : Atomic change f) :
    (within id change).perform s = settle s (match s.get? id with
      | none => .error (.notFound id)
      | some job => (f job).map fun (answer, job) => (answer, s.set id job)) := by
  show (match s.get? id with
    | none => (Except.error (JobError.notFound id), s)
    | some job => ((change.perform job).1, s.set id (change.perform job).2)) = _
  cases found : s.get? id with
  | none => rfl
  | some job =>
    simp only [atomic job]
    cases f job with
    | ok r => rfl
    | error e => exact congrArg (Prod.mk (Except.error e)) (h.set_self found)

theorem Distinct.perform_claiming (h : s.Distinct) (id : JobId) :
    (claiming id).perform s = (.ok ((s.claim id).map Prod.fst), s.apply (.claim id)) := by
  have inside := h.perform_within id Job.atomic_claiming
  show (match (within id Job.claiming).perform s with
    | (.ok job, s) => (Except.ok (some job), s)
    | (.error _, s) => (Except.ok none, s)) = _
  rw [inside, apply, Store.claim]
  cases s.get? id with
  | none => rfl
  | some job => dsimp only; cases job.claimed <;> rfl

theorem recoverInPlace_eq (es : List Entry) :
    recoverInPlace es =
      (.ok (es.countP fun e => e.job.lapsed), es.map fun e => { e with job := e.job.swept }) := by
  induction es with
  | nil => rfl
  | cons e es ih =>
    rw [recoverInPlace, Job.perform_recovering, ih, List.countP_cons, List.map_cons]
    cases e.job.lapsed <;> rfl

theorem perform_recovering (s : Store) (cancelled : Bool) :
    (recovering cancelled).perform s = settle s (s.recoverEligible cancelled) := by
  cases cancelled with
  | true => rfl
  | false =>
    show ((recoverInPlace s.entries).1, { s with entries := (recoverInPlace s.entries).2 }) = _
    rw [recoverInPlace_eq, recoverEligible_eq]
    rfl

theorem Distinct.allOrNothing (h : s.Distinct) : s.AllOrNothing where
  claim := h.perform_claiming
  success id := by
    rw [h.perform_within id Job.atomic_succeeding, reportSuccess]
    cases s.get? id with
    | none => rfl
    | some job => dsimp only; cases job.succeeded <;> rfl
  failure id reason := h.perform_within id (Job.atomic_failing reason)
  sweep := perform_recovering s

end

end Store

/-! ## What changes -/

/-- The one id that an operation is about, if there is one. -/
def Operation.subject? : Operation → Option JobId
  | .create job _ => some job.id
  | .claim id => some id
  | .succeed id => some id
  | .fail id _ => some id
  | .recover _ => none

namespace Store

/-- What an operation may make of an entry.

  * `seq`, `id`, `errand`, `createdAt` — these never change.
  * `status`    — moves along the transition table, or is set back at once by a failure that leads
    to a retry.
  * `attempts`  — one more, up to the greatest word, by a claim that wins.
  * `lastError` — the reason of a failure that is accepted.
  * `others`    — an operation on one id leaves the other entries alone. -/
structure Legal (s : Store) (op : Operation) (e e' : Entry) : Prop where
  seq : e'.seq = e.seq
  id : e'.job.id = e.job.id
  errand : e'.job.errand = e.job.errand
  createdAt : e'.job.createdAt = e.job.createdAt
  status : e'.job.status = e.job.status ∨ e.job.status.canMoveTo e'.job.status = true ∨
    (e.job.status = .processing ∧ e'.job.status = .pending ∧ ∃ reason s',
      op = .fail e.job.id reason ∧ s.reportFailure e.job.id reason = .ok (.retry, s'))
  attempts : e'.job.attempts = e.job.attempts ∨
    (op = .claim e.job.id ∧ (s.claim e.job.id).isSome ∧
      e'.job.attempts.toNat = min (e.job.attempts.toNat + 1) (2 ^ 32 - 1))
  lastError : e'.job.lastError = e.job.lastError ∨ ∃ reason r,
    op = .fail e.job.id reason ∧ s.reportFailure e.job.id reason = .ok r ∧
      e'.job.lastError = some reason
  others : ∀ id, op.subject? = some id → id ≠ e.job.id → e' = e

/-- Why a report that wants to move the job of an id to a state is refused. -/
inductive Refusal (s : Store) (id : JobId) (target : Status) : JobError → Prop
  | absent (h : s.get? id = none) : s.Refusal id target (.notFound id)
  | unfit {job : Job} (found : s.get? id = some job) (h : job.status ≠ .processing) :
      s.Refusal id target (.invalidTransition id job.status target)

/-- What the operations answer, and what they leave where they are accepted. -/
structure Answers (s : Store) : Prop where
  success : ∀ id e, s.reportSuccess id = .error e ↔ s.Refusal id .completed e
  failure : ∀ id reason e, s.reportFailure id reason = .error e ↔ s.Refusal id .failed e
  claim : ∀ id, (s.claim id).isSome ↔ ∃ job, s.get? id = some job ∧ job.status = .pending
  claimed : ∀ id snapshot s', s.claim id = some (snapshot, s') →
    s'.get? id = some snapshot ∧ snapshot.status = .processing ∧ ∃ job, s.get? id = some job ∧
      snapshot.attempts.toNat = min (job.attempts.toNat + 1) (2 ^ 32 - 1)
  succeeded : ∀ id s', s.reportSuccess id = .ok s' →
    ∃ job, s'.get? id = some job ∧ job.status = .completed
  failed : ∀ id reason verdict s', s.reportFailure id reason = .ok (verdict, s') →
    ∃ job, s'.get? id = some job ∧ job.lastError = some reason ∧
      ((verdict = .retry ∧ job.attempts ≤ job.maxRetries ∧ job.status = .pending) ∨
        (verdict = .exhausted ∧ job.maxRetries < job.attempts ∧ job.status = .failed))

section
variable {s : Store} {op : Operation} {id : JobId} {e : Entry}

theorem Legal.refl : Legal s op e e :=
  ⟨rfl, rfl, rfl, rfl, .inl rfl, .inl rfl, .inl rfl, fun _ _ _ => rfl⟩

/-- An operation on one id leaves the other entries alone, whatever it makes of this one. -/
theorem eq_of_other_subject {e' : Entry} (here : op.subject? = some e.job.id) (id : JobId)
    (subject : op.subject? = some id) (other : id ≠ e.job.id) : e' = e :=
  absurd (Option.some.inj (subject.symm.trans here)) other

/-- Rewriting the record of an id is seen on the entry of that id. -/
theorem find?_set {new : Job} (hnew : new.id = id) (id' : JobId) :
    (s.set id new).find? id' =
      (s.find? id').map fun e => if e.job.id = id then { e with job := new } else e := by
  rw [set, find?, List.find?_map]
  have same : ((fun e : Entry => decide (e.job.id = id')) ∘
      fun e => if e.job.id = id then { e with job := new } else e) =
      fun e => decide (e.job.id = id') := by
    funext e
    by_cases h : e.job.id = id <;> simp [h, hnew]
  rw [same]
  rfl

theorem find?_swept (s : Store) (id : JobId) :
    s.swept.find? id = (s.find? id).map fun e => { e with job := e.job.swept } := by
  rw [swept, find?, List.find?_map]
  simp [find?]

/-- Rewriting the record of an id is legal, if it is on the entry of that id. -/
theorem legal_of_set {old new : Job} (found : s.get? old.id = some old) (hnew : new.id = old.id)
    (legal : ∀ e, e.job = old → Legal s op e { e with job := new }) (he : s.find? id = some e) :
    ∃ e', (s.set old.id new).find? id = some e' ∧ Legal s op e e' := by
  have here : e.job.id = id := by simpa using List.find?_some he
  refine ⟨_, by rw [find?_set hnew, he, Option.map_some], ?_⟩
  by_cases same : e.job.id = old.id
  · have job : e.job = old := by
      have stored : s.get? id = some e.job := by rw [get?, he]; rfl
      rw [← here, same, found] at stored
      exact (Option.some.inj stored).symm
    rw [if_pos same]
    exact legal e job
  · rw [if_neg same]
    exact Legal.refl

theorem legal_apply (notCreate : ∀ job cancelled, op ≠ .create job cancelled)
    (he : s.find? id = some e) : ∃ e', (s.apply op).find? id = some e' ∧ Legal s op e e' := by
  cases op with
  | create job cancelled => exact absurd rfl (notCreate job cancelled)
  | claim id' =>
    cases hc : s.claim id' with
    | none => exact ⟨e, by rw [apply, hc]; exact he, Legal.refl⟩
    | some r =>
      obtain ⟨snapshot, s'⟩ := r
      obtain ⟨old, found, pending, rfl, rfl⟩ := claim_eq_some_iff.1 hc
      obtain rfl := id_of_get? found
      rw [apply, hc]
      refine legal_of_set found rfl (fun e hjob => ?_) he
      subst hjob
      refine ⟨rfl, rfl, rfl, rfl, .inr (.inl ?_), .inr ⟨rfl, by rw [hc]; rfl, ?_⟩, .inl rfl,
        eq_of_other_subject rfl⟩
      · rw [pending]; rfl
      · exact Job.toNat_saturatingSucc e.job.attempts
  | succeed id' =>
    cases hr : s.reportSuccess id' with
    | error refusal => exact ⟨e, by rw [apply, hr]; exact he, Legal.refl⟩
    | ok s' =>
      obtain ⟨old, found, processing, rfl⟩ := reportSuccess_eq_ok_iff.1 hr
      obtain rfl := id_of_get? found
      rw [apply, hr]
      refine legal_of_set found rfl (fun e hjob => ?_) he
      subst hjob
      refine ⟨rfl, rfl, rfl, rfl, .inr (.inl ?_), .inl rfl, .inl rfl, eq_of_other_subject rfl⟩
      rw [processing]; rfl
  | fail id' reason =>
    cases hr : s.reportFailure id' reason with
    | error refusal => exact ⟨e, by rw [apply, hr]; exact he, Legal.refl⟩
    | ok r =>
      obtain ⟨verdict, s'⟩ := r
      obtain ⟨old, found, processing, rfl, rfl⟩ := reportFailure_eq_ok_iff.1 hr
      obtain rfl := id_of_get? found
      rw [apply, hr]
      refine legal_of_set found rfl (fun e hjob => ?_) he
      subst hjob
      refine ⟨rfl, rfl, rfl, rfl, .inr ?_, .inl rfl, .inr ⟨reason, _, rfl, hr, rfl⟩,
        eq_of_other_subject rfl⟩
      cases verdict : e.job.verdict with
      | retry =>
        rw [verdict] at hr
        exact .inr ⟨processing, by simp [Job.reported, verdict, Verdict.status],
          reason, _, rfl, hr⟩
      | exhausted =>
        exact .inl (by simp [Job.reported, verdict, Verdict.status, processing, Status.canMoveTo])
  | recover cancelled =>
    cases cancelled with
    | true => exact ⟨e, he, Legal.refl⟩
    | false =>
      refine ⟨{ e with job := e.job.swept }, ?_, ?_⟩
      · rw [apply, recoverEligible_eq]
        show s.swept.find? id = _
        rw [find?_swept, he, Option.map_some]
      · by_cases lapsed : e.job.lapsed = true
        · have failed : e.job.status = .failed := by
            simp only [Job.lapsed, Bool.and_eq_true, decide_eq_true_eq] at lapsed
            exact lapsed.1
          have after : e.job.swept = { e.job with status := .pending } := by
            rw [Job.swept, if_pos lapsed]
          rw [after]
          refine ⟨rfl, rfl, rfl, rfl, .inr (.inl (by rw [failed]; rfl)), .inl rfl, .inl rfl, ?_⟩
          intro id noSubject
          cases noSubject
        · rw [Job.swept_of_not_lapsed (by simpa using lapsed)]
          exact Legal.refl

/-- A report that is accepted for what is processing is refused for all else. -/
theorem refusal_iff {α : Type} {target : Status} {e : JobError} (report : Job → Except JobError α)
    (accepts : ∀ job, job.status = .processing → ∃ a, report job = .ok a)
    (refuses : ∀ job, job.status ≠ .processing →
      report job = .error (.invalidTransition job.id job.status target)) :
    (match s.get? id with
      | none => Except.error (JobError.notFound id)
      | some job => report job) = .error e ↔ s.Refusal id target e := by
  cases found : s.get? id with
  | none =>
    constructor
    · intro h
      cases h
      exact .absent found
    · intro h
      cases h with
      | absent => rfl
      | unfit found' => rw [found] at found'; cases found'
  | some job =>
    obtain rfl := id_of_get? found
    by_cases processing : job.status = .processing
    · obtain ⟨a, ha⟩ := accepts job processing
      dsimp only
      rw [ha]
      refine ⟨nofun, fun h => ?_⟩
      cases h with
      | absent absent => rw [found] at absent; cases absent
      | unfit found' unfit =>
        rw [found] at found'
        cases found'
        exact absurd processing unfit
    · dsimp only
      rw [refuses job processing]
      constructor
      · intro h
        cases h
        exact .unfit found processing
      · intro h
        cases h with
        | absent absent => rw [found] at absent; cases absent
        | unfit found' => rw [found] at found'; cases found'; rfl

theorem reportSuccess_eq_error_iff {e : JobError} :
    s.reportSuccess id = .error e ↔ s.Refusal id .completed e := by
  rw [reportSuccess]
  exact refusal_iff _
    (fun job processing => ⟨_, by rw [Job.succeeded_of_processing processing]; rfl⟩)
    fun job unfit => by rw [Job.succeeded_of_not_processing unfit]; rfl

theorem reportFailure_eq_error_iff {reason : String} {e : JobError} :
    s.reportFailure id reason = .error e ↔ s.Refusal id .failed e := by
  rw [reportFailure]
  exact refusal_iff _
    (fun job processing => ⟨_, by rw [Job.failedWith_of_processing processing]; rfl⟩)
    fun job unfit => by rw [Job.failedWith_of_not_processing unfit]; rfl

theorem isSome_claim_iff :
    (s.claim id).isSome ↔ ∃ job, s.get? id = some job ∧ job.status = .pending := by
  rw [Option.isSome_iff_ne_none, Ne, claim_eq_none_iff]
  push Not
  rfl

theorem answers (s : Store) : s.Answers where
  success _ _ := reportSuccess_eq_error_iff
  failure _ _ _ := reportFailure_eq_error_iff
  claim _ := isSome_claim_iff
  claimed id snapshot s' h := by
    obtain ⟨job, found, -, rfl, rfl⟩ := claim_eq_some_iff.1 h
    obtain rfl := id_of_get? found
    exact ⟨get?_set_self rfl found, rfl, job, found, Job.toNat_saturatingSucc job.attempts⟩
  succeeded id s' h := by
    obtain ⟨job, found, -, rfl⟩ := reportSuccess_eq_ok_iff.1 h
    obtain rfl := id_of_get? found
    exact ⟨_, get?_set_self rfl found, rfl⟩
  failed id reason verdict s' h := by
    obtain ⟨job, found, -, rfl, rfl⟩ := reportFailure_eq_ok_iff.1 h
    obtain rfl := id_of_get? found
    refine ⟨_, get?_set_self rfl found, rfl, ?_⟩
    by_cases retryable : job.retryable = true
    · have verdict : job.verdict = .retry := by rw [Job.verdict, if_pos retryable]
      refine .inl ⟨verdict, ?_, by rw [Job.reported, verdict]; rfl⟩
      simpa [Job.retryable, retryEligible] using retryable
    · have verdict : job.verdict = .exhausted := by rw [Job.verdict, if_neg retryable]
      refine .inr ⟨verdict, ?_, by rw [Job.reported, verdict]; rfl⟩
      simpa [Job.retryable, retryEligible] using retryable

end

theorem ids_apply {s : Store} {op : Operation}
    (notCreate : ∀ job cancelled, op ≠ .create job cancelled) :
    (s.apply op).ids = s.ids ∧ (s.apply op).nextSeq = s.nextSeq := by
  cases s.performs op with
  | refused same => rw [same]; exact ⟨rfl, rfl⟩
  | changed _ change wrote => rw [wrote]; exact ⟨ids_set change.id_eq, rfl⟩
  | created isCreation => exact absurd isCreation (notCreate _ _)
  | swept wrote => rw [wrote]; exact ⟨ids_swept s, rfl⟩

/-- **Every operation on the jobs of a store is legal.** No job comes or goes, each entry changes as
it may, the answers tell what was found, and the operation is carried out as a whole or not at
all. -/
theorem operations_are_legal {s : Store} (distinct : s.Distinct) :
    (∀ op, (∀ job cancelled, op ≠ .create job cancelled) →
      (s.apply op).ids = s.ids ∧ (s.apply op).nextSeq = s.nextSeq ∧
      ∀ id e, s.find? id = some e → ∃ e', (s.apply op).find? id = some e' ∧ Legal s op e e') ∧
    s.Answers ∧ s.AllOrNothing := by
  refine ⟨fun op notCreate => ?_, s.answers, distinct.allOrNothing⟩
  obtain ⟨ids, next⟩ := ids_apply (s := s) notCreate
  exact ⟨ids, next, fun id e he => legal_apply notCreate he⟩

/-- A job whose budget still has a retry, and one that has been claimed too often to count. -/
def twoAttempts : Store where
  entries := [
    ⟨0, ⟨⟨"a"⟩, "email_send", .processing, [], 1, 3, none, ⟨0, 0⟩⟩⟩,
    ⟨1, ⟨⟨"b"⟩, "email_send", .pending, [], 4294967295, 0, some "no route", ⟨0, 0⟩⟩⟩]
  nextSeq := 2

/-- The failure of one job leaves the other alone and is answered with a retry. A claim of the other
counts no further. -/
theorem legal_of_twoAttempts :
    twoAttempts.Distinct ∧
    (∃ e', (twoAttempts.apply (.fail ⟨"a"⟩ "timeout")).find? ⟨"b"⟩ = some e' ∧
      e'.job.attempts = 4294967295) ∧
    (InPlace.perform (within ⟨"a"⟩ (Job.failing "timeout")) twoAttempts).1 = .ok .retry ∧
    InPlace.perform (within ⟨"b"⟩ (Job.failing "timeout")) twoAttempts =
      (.error (.invalidTransition ⟨"b"⟩ .pending .failed), twoAttempts) := by
  have distinct : twoAttempts.Distinct := by simp [Distinct, ids, twoAttempts]
  obtain ⟨legal, -, whole⟩ := operations_are_legal distinct
  obtain ⟨-, -, entries⟩ := legal (.fail ⟨"a"⟩ "timeout") (by intro _ _ h; cases h)
  obtain ⟨e', he', step⟩ := entries ⟨"b"⟩ _ rfl
  have untouched := step.others ⟨"a"⟩ rfl (by decide)
  refine ⟨distinct, ⟨e', he', by rw [untouched]⟩, ?_, ?_⟩
  · rw [whole.failure]; rfl
  · rw [whole.failure]; rfl

end Store
end JobPipeline
