import JobPipeline.Proofs.Store.Legality

/-!
# Sweeps in any order

A map hands out its entries in whatever order it likes, so a sweep visits them in any. It changes
each in place (`Store.visiting`), and one move that is refused would end it half-way. None is: only
what has failed is moved, and what has failed may go back. So a visit changes the entries that it
comes to and no others (`Distinct.perform_visiting`), and visits of all entries come to the same
(`Distinct.perform_sweeping`).

Afterwards no job has lapsed. Claims and reports keep it so, as a report that leads to a retry sends
the job back itself. This is why a later sweep finds nothing (`all_not_lapsed_applyAll`).
-/

namespace JobPipeline

open InPlace

/-- Whether the operation is the claim of a job or the report of an attempt. -/
def Operation.isAttempt : Operation → Bool
  | .claim _ => true
  | .succeed _ => true
  | .fail _ _ => true
  | .create _ _ => false
  | .recover _ => false

theorem Job.atomic_recovering : Atomic recovering Job.recovered := by
  intro job
  rw [perform_recovering, recovered_eq]
  rfl

theorem Job.lapsed_iff {job : Job} :
    job.lapsed = true ↔ job.status = .failed ∧ job.attempts ≤ job.maxRetries := by
  simp [lapsed, retryable, retryEligible]

namespace Store

/-! ## One visit after the other -/

/-- Visits the records of some ids one after the other and sends the lapsed ones back. The first
refusal ends it. -/
def visiting : List JobId → InPlace Store Nat
  | [] => return 0
  | id :: rest => do
    let moved ← within id Job.recovering
    let n ← visiting rest
    return n + moved.toNat

/-- A sweep that visits the records in a given order. -/
def sweeping (cancelled : Bool) (order : List JobId) : InPlace Store Nat :=
  if cancelled then throw .cancelled else visiting order

/-- The store once a sweep has been at some ids. -/
def sweptAt (s : Store) (visited : List JobId) : Store :=
  { s with entries := s.entries.map fun e =>
      if e.job.id ∈ visited then { e with job := e.job.swept } else e }

section
variable {s : Store} {id : JobId} {job : Job} {order : List JobId}

theorem Distinct.perform_within_recovering (distinct : s.Distinct) (found : s.get? id = some job) :
    (within id Job.recovering).perform s = (.ok job.lapsed, s.set id job.swept) := by
  rw [distinct.perform_within id Job.atomic_recovering, found]
  dsimp only
  rw [Job.recovered_eq]
  rfl

/-- The first visit changes its own entry, and the later ones do not come back to it. -/
theorem Distinct.sweptAt_set (distinct : s.Distinct) (found : s.get? id = some job)
    (once : id ∉ order) : (s.set id job.swept).sweptAt order = s.sweptAt (id :: order) := by
  have same : ∀ e ∈ s.entries,
      (let e' := if e.job.id = id then { e with job := job.swept } else e
        if e'.job.id ∈ order then { e' with job := e'.job.swept } else e') =
      if e.job.id ∈ id :: order then { e with job := e.job.swept } else e := by
    intro e he
    by_cases here : e.job.id = id
    · have stored := distinct.get?_of_mem he
      rw [here, found] at stored
      obtain rfl := Option.some.inj stored
      simp [here, once]
    · simp [here]
  simp only [sweptAt, Store.set, List.map_map]
  rw [Store.mk.injEq]
  exact ⟨List.map_congr_left same, rfl⟩

theorem Distinct.perform_visiting (distinct : s.Distinct) (once : order.Nodup)
    (stored : ∀ id ∈ order, id ∈ s.ids) :
    (visiting order).perform s =
      (.ok (order.countP fun id => (s.get? id).any Job.lapsed), s.sweptAt order) := by
  induction order generalizing s with
  | nil => simp only [sweptAt, List.not_mem_nil, if_false, List.map_id']; rfl
  | cons id rest ih =>
    obtain ⟨unvisited, once⟩ := List.nodup_cons.1 once
    obtain ⟨job, found⟩ : ∃ job, s.get? id = some job := by
      rw [← Option.isSome_iff_exists, Option.isSome_iff_ne_none, Ne, get?_eq_none_iff, not_not]
      exact stored id List.mem_cons_self
    have same : job.swept.id = id := (Job.id_swept job).trans (id_of_get? found)
    have later := ih (distinct.set same) once fun other hother => by
      rw [ids_set same]
      exact stored other (List.mem_cons_of_mem _ hother)
    have untouched : rest.countP (fun other => ((s.set id job.swept).get? other).any Job.lapsed) =
        rest.countP fun other => (s.get? other).any Job.lapsed := by
      refine List.countP_congr fun other hother => ?_
      rw [get?_set_of_ne same (ne_of_mem_of_not_mem hother unvisited)]
    rw [visiting, perform_bind_ok (distinct.perform_within_recovering found),
      perform_bind_ok later, untouched, distinct.sweptAt_set found unvisited, List.countP_cons,
      found]
    cases lapsed : job.lapsed <;> simp [lapsed] <;> rfl

/-! ## All entries -/

/-- Visiting all entries, in whatever order, is the sweep. -/
theorem Distinct.perform_sweeping (distinct : s.Distinct) (all : order.Perm s.ids)
    (cancelled : Bool) :
    (sweeping cancelled order).perform s = settle s (s.recoverEligible cancelled) := by
  cases cancelled with
  | true => rfl
  | false =>
    have visits := distinct.perform_visiting (all.nodup_iff.2 distinct) fun _ => all.mem_iff.1
    have count : (order.countP fun id => (s.get? id).any Job.lapsed) =
        s.entries.countP fun e => e.job.lapsed := by
      rw [all.countP_eq, ids, List.countP_map]
      refine List.countP_congr fun e he => ?_
      rw [Function.comp_apply, distinct.get?_of_mem he, Option.any_some]
    have everywhere : s.sweptAt order = s.swept := by
      rw [sweptAt, Store.swept, Store.mk.injEq]
      refine ⟨List.map_congr_left fun e he => if_pos ?_, rfl⟩
      exact all.mem_iff.2 (List.mem_map_of_mem he)
    rw [recoverEligible_eq, ← count, ← everywhere]
    exact visits

/-- A store in which nothing has lapsed is left alone. -/
theorem Distinct.perform_sweeping_of_none (distinct : s.Distinct) (all : order.Perm s.ids)
    (none : s.All (·.lapsed = false)) : (sweeping false order).perform s = (.ok 0, s) := by
  have count : (s.entries.countP fun e => e.job.lapsed) = 0 := by
    refine List.countP_eq_zero.2 fun e he => ?_
    rw [none _ _ (distinct.get?_of_mem he)]
    exact Bool.false_ne_true
  rw [distinct.perform_sweeping all, recoverEligible_eq, count, distinct.swept_eq none]
  rfl

/-! ## What comes after a sweep -/

/-- No claim and no report makes a job lapse. -/
theorem all_not_lapsed_apply {op : Operation} (distinct : s.Distinct)
    (none : s.All (·.lapsed = false)) (attempt : op.isAttempt = true) :
    (s.apply op).Distinct ∧ (s.apply op).All (·.lapsed = false) := by
  cases s.performs op with
  | refused same => rw [same]; exact ⟨distinct, none⟩
  | changed found change wrote =>
    rw [wrote]
    exact ⟨distinct.set change.id_eq, none.set found change.id_eq change.not_lapsed⟩
  | created isCreation => rw [isCreation] at attempt; cases attempt
  | swept wrote => rw [wrote]; exact ⟨distinct.swept, s.all_not_lapsed_swept⟩

theorem all_not_lapsed_applyAll {ops : List Operation} (distinct : s.Distinct)
    (none : s.All (·.lapsed = false)) (attempts : ∀ op ∈ ops, op.isAttempt = true) :
    (s.applyAll ops).Distinct ∧ (s.applyAll ops).All (·.lapsed = false) := by
  induction ops generalizing s with
  | nil => exact ⟨distinct, none⟩
  | cons op ops ih =>
    obtain ⟨distinct', none'⟩ :=
      all_not_lapsed_apply distinct none (attempts op List.mem_cons_self)
    exact ih distinct' none' fun later h => attempts later (List.mem_cons_of_mem _ h)

/-- The job of an id stands as a verdict says, by the budget that it has, and a sweep leaves it
so. -/
def Stands (s : Store) (id : JobId) (verdict : Verdict) : Prop :=
  ∃ job, s.get? id = some job ∧ (verdict = .retry ↔ job.attempts ≤ job.maxRetries) ∧
    job.status = verdict.status ∧
    ∀ order : List JobId, order.Perm s.ids →
      ((sweeping false order).perform s).2.get? id = some job

/-- What a sweep comes to, in whatever order it visits the entries of a map.

  * `moves`   — the failed jobs within their budget are counted and go back to pending, and nothing
    else changes.
  * `refused` — with a token that has fired nothing is done.
  * `same`    — this is what the store's own sweep does.
  * `settled` — after any claims and reports, accepted or not, another sweep finds nothing to do.
  * `agreed`  — a sweep does not disagree with the verdict on a failure. -/
structure AnyOrder (s : Store) : Prop where
  moves : ∀ order : List JobId, order.Perm s.ids →
    (sweeping false order).perform s =
      (.ok (s.entries.countP fun e => e.job.status = .failed ∧ e.job.attempts ≤ e.job.maxRetries),
        { s with entries := s.entries.map fun e =>
            if e.job.status = .failed ∧ e.job.attempts ≤ e.job.maxRetries
              then { e with job := { e.job with status := .pending } } else e })
  refused : ∀ order : List JobId, (sweeping true order).perform s = (.error .cancelled, s)
  same : ∀ (order : List JobId) (cancelled : Bool), order.Perm s.ids →
    (sweeping cancelled order).perform s = settle s (s.recoverEligible cancelled)
  settled : ∀ order : List JobId, order.Perm s.ids →
    ∀ ops : List Operation, (∀ op ∈ ops, op.isAttempt = true) →
      let later := ((sweeping false order).perform s).2.applyAll ops
      ∀ order' : List JobId, order'.Perm later.ids →
        (sweeping false order').perform later = (.ok 0, later)
  agreed : ∀ id reason verdict reported, s.reportFailure id reason = .ok (verdict, reported) →
    reported.Stands id verdict

/-- A sweep, with the lapsed jobs spelled out. -/
theorem settle_recoverEligible (s : Store) :
    settle s (s.recoverEligible false) =
      (.ok (s.entries.countP fun e => e.job.status = .failed ∧ e.job.attempts ≤ e.job.maxRetries),
        { s with entries := s.entries.map fun e =>
            if e.job.status = .failed ∧ e.job.attempts ≤ e.job.maxRetries
              then { e with job := { e.job with status := .pending } } else e }) := by
  have count : (s.entries.countP fun e => e.job.lapsed) = s.entries.countP fun e =>
      decide (e.job.status = .failed ∧ e.job.attempts ≤ e.job.maxRetries) :=
    List.countP_congr fun e _ => by rw [Job.lapsed_iff, decide_eq_true_iff]
  have entry : ∀ e ∈ s.entries, { e with job := e.job.swept } =
      if e.job.status = .failed ∧ e.job.attempts ≤ e.job.maxRetries
        then { e with job := { e.job with status := .pending } } else e := by
    intro e _
    simp only [Job.swept, Job.lapsed_iff]
    split <;> rfl
  rw [recoverEligible_eq, settle, count, swept, List.map_congr_left entry]

theorem Distinct.stands (distinct : s.Distinct) {reason : String} {verdict : Verdict}
    {reported : Store} (accepted : s.reportFailure id reason = .ok (verdict, reported)) :
    reported.Stands id verdict := by
  obtain ⟨old, found, -, rfl, rfl⟩ := reportFailure_eq_ok_iff.1 accepted
  have same : (old.reported (.failure reason)).id = id :=
    (Job.id_reported _ old).trans (id_of_get? found)
  have stands := get?_set_self same found
  refine ⟨old.reported (.failure reason), stands, ?_, rfl, fun order all => ?_⟩
  · rw [Job.attempts_reported, Job.maxRetries_reported, Job.verdict]
    by_cases retryable : old.retryable = true
    · rw [if_pos retryable]
      have within : old.attempts ≤ old.maxRetries := by
        simpa [Job.retryable, retryEligible] using retryable
      exact iff_of_true rfl within
    · rw [if_neg retryable]
      have spent : ¬ old.attempts ≤ old.maxRetries := by
        simpa [Job.retryable, retryEligible] using retryable
      exact iff_of_false Verdict.noConfusion spent
  · rw [(distinct.set same).perform_sweeping all, recoverEligible_eq, settle, get?_swept, stands,
      Option.map_some, Job.swept_of_not_lapsed (Job.lapsed_reported _ old)]

end

/-- **The order of a sweep makes no difference, and one sweep is enough.** Whatever order the map
hands out its entries in, the sweep is carried out as a whole and moves the same jobs. Afterwards no
claim and no report, accepted or not, makes work for another one. -/
theorem sweep_in_any_order {s : Store} (distinct : s.Distinct) : s.AnyOrder where
  moves order all := by
    rw [distinct.perform_sweeping all, settle_recoverEligible]
  refused _ := rfl
  same _ cancelled all := distinct.perform_sweeping all cancelled
  settled order all ops attempts := by
    intro later order' all'
    have swept : ((sweeping false order).perform s).2 = s.swept := by
      rw [distinct.perform_sweeping all, recoverEligible_eq]
      rfl
    obtain ⟨distinct', none⟩ :=
      all_not_lapsed_applyAll distinct.swept s.all_not_lapsed_swept attempts
    rw [← swept] at distinct' none
    exact distinct'.perform_sweeping_of_none all' none
  agreed _ _ _ _ accepted := distinct.stands accepted

/-- Three failed jobs, two of them within their budgets, and one that is being done. -/
def threeFailed : Store where
  entries := [
    ⟨0, ⟨⟨"a"⟩, "email_send", .failed, [], 1, 3, some "no route", ⟨0, 0⟩⟩⟩,
    ⟨1, ⟨⟨"b"⟩, "email_send", .failed, [], 4, 3, some "no route", ⟨0, 0⟩⟩⟩,
    ⟨2, ⟨⟨"c"⟩, "image_resize", .processing, [], 1, 0, none, ⟨0, 0⟩⟩⟩,
    ⟨4, ⟨⟨"d"⟩, "email_send", .failed, [], 0, 0, none, ⟨0, 0⟩⟩⟩]
  nextSeq := 5

/-- From the last entry to the first two jobs are sent back. Then one of them is claimed and fails,
and so does another for good, and a report is refused. There is nothing left to send back. -/
theorem sweeps_of_threeFailed :
    let s := threeFailed
    let swept := ((sweeping false [⟨"d"⟩, ⟨"c"⟩, ⟨"b"⟩, ⟨"a"⟩]).perform s).2
    let later := swept.applyAll [.claim ⟨"a"⟩, .fail ⟨"a"⟩ "timeout", .fail ⟨"c"⟩ "timeout",
      .succeed ⟨"b"⟩]
    s.Distinct ∧ ((sweeping false [⟨"d"⟩, ⟨"c"⟩, ⟨"b"⟩, ⟨"a"⟩]).perform s).1 = .ok 2 ∧
      swept.entries.map (fun e => e.job.status) = [.pending, .failed, .processing, .pending] ∧
      later.entries.map (fun e => e.job.status) = [.pending, .failed, .failed, .pending] ∧
      (sweeping false [⟨"b"⟩, ⟨"a"⟩, ⟨"d"⟩, ⟨"c"⟩]).perform later = (.ok 0, later) := by
  intro s swept later
  have distinct : s.Distinct := by simp [Distinct, ids, s, threeFailed]
  have all : [(⟨"d"⟩ : JobId), ⟨"c"⟩, ⟨"b"⟩, ⟨"a"⟩].Perm s.ids := by decide
  have sound := sweep_in_any_order distinct
  have settled := sound.settled _ all [.claim ⟨"a"⟩, .fail ⟨"a"⟩ "timeout",
    .fail ⟨"c"⟩ "timeout", .succeed ⟨"b"⟩] (by decide) [⟨"b"⟩, ⟨"a"⟩, ⟨"d"⟩, ⟨"c"⟩]
  refine ⟨distinct, ?_, ?_, ?_, settled ?_⟩
  · rw [sound.moves _ all]; rfl
  · simp only [swept]; rw [sound.moves _ all]; rfl
  · simp only [later, swept]; rw [sound.moves _ all]; rfl
  · rw [sound.moves _ all]; decide

end Store
end JobPipeline
