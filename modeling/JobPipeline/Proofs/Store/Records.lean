import JobPipeline.Proofs.Job.Changes
import Mathlib

/-!
# The store as a map of records

Each operation of the store is described by what it does to the look-up `get?`: a successful claim
or report writes one record (`set`), a sweep rewrites all of them (`swept`), a creation adds one.
Where ids are `Distinct`, as in a map they are, `total` sums a figure over all records, and each
operation changes it by the records it writes only.
-/

namespace JobPipeline.Store

/-- The ids in the store, in order of insertion. -/
def ids (s : Store) : List JobId := s.entries.map fun e => e.job.id

/-- No id has two records. -/
def Distinct (s : Store) : Prop := s.ids.Nodup

def swept (s : Store) : Store :=
  { s with entries := s.entries.map fun e => { e with job := e.job.swept } }

/-- A property of the record of every id. -/
def All (P : Job → Prop) (s : Store) : Prop := ∀ id job, s.get? id = some job → P job

/-- A figure summed over all records. -/
def total (f : Job → Nat) (s : Store) : Nat := (s.entries.map fun e => f e.job).sum

/-! ## Look-ups -/

theorem id_of_get? {s : Store} {id : JobId} {job : Job} (h : s.get? id = some job) :
    job.id = id := by
  obtain ⟨e, he, rfl⟩ := Option.map_eq_some_iff.1 h
  simpa using List.find?_some he

theorem mem_of_get? {s : Store} {id : JobId} {job : Job} (h : s.get? id = some job) :
    ∃ e ∈ s.entries, e.job = job := by
  obtain ⟨e, he, rfl⟩ := Option.map_eq_some_iff.1 h
  exact ⟨e, List.mem_of_find?_eq_some he, rfl⟩

theorem get?_eq_none_iff {s : Store} {id : JobId} : s.get? id = none ↔ id ∉ s.ids := by
  simp only [get?, find?, ids, Option.map_eq_none_iff, List.find?_eq_none, decide_eq_true_eq,
    List.mem_map, not_exists, not_and]

/-- In a map every record is found under its id. -/
theorem Distinct.get?_of_mem {s : Store} (h : s.Distinct) {e : Entry} (he : e ∈ s.entries) :
    s.get? e.job.id = some e.job := by
  cases hg : s.get? e.job.id with
  | none => exact absurd (List.mem_map.2 ⟨e, he, rfl⟩) (get?_eq_none_iff.1 hg)
  | some job =>
    obtain ⟨e', he', rfl⟩ := mem_of_get? hg
    rw [List.inj_on_of_nodup_map h he' he (id_of_get? hg)]

/-- Rewriting the records, each under its id, is seen record by record. -/
theorem get?_map {s : Store} (g : Entry → Entry) (hg : ∀ e, (g e).job.id = e.job.id) (id : JobId) :
    ({ s with entries := s.entries.map g } : Store).get? id =
      (s.find? id).map fun e => (g e).job := by
  simp only [get?, find?, List.find?_map, Option.map_map]
  have hp : ((fun e : Entry => decide (e.job.id = id)) ∘ g) = fun e => decide (e.job.id = id) := by
    funext e; simp [hg]
  rw [hp]; rfl

@[simp] theorem get?_swept (s : Store) (id : JobId) :
    s.swept.get? id = (s.get? id).map Job.swept := by
  rw [swept, get?_map _ (fun e => Job.id_swept e.job)]
  simp [get?, Function.comp_def]

theorem get?_set {s : Store} {id : JobId} {new : Job} (hnew : new.id = id) (id' : JobId) :
    (s.set id new).get? id' = if id' = id then (s.get? id').map fun _ => new else s.get? id' := by
  rw [set, get?_map _ (fun e => by by_cases h : e.job.id = id <;> simp [h, hnew])]
  cases hf : s.find? id' with
  | none => simp [get?, hf]
  | some e =>
    have he : e.job.id = id' := by simpa using List.find?_some hf
    by_cases h : id' = id
    · subst h; simp [get?, hf, he]
    · have h' : ¬ e.job.id = id := fun h'' => h (he.symm.trans h'')
      simp [get?, hf, h, h']

theorem get?_set_self {s : Store} {id : JobId} {old new : Job} (hnew : new.id = id)
    (h : s.get? id = some old) :
    (s.set id new).get? id = some new := by
  simp [get?_set hnew, h]

theorem get?_set_of_ne {s : Store} {id id' : JobId} {new : Job} (hnew : new.id = id)
    (h : id' ≠ id) :
    (s.set id new).get? id' = s.get? id' := by
  simp [get?_set hnew, h]

/-! ## The operations -/

theorem claim_eq_some_iff {s s' : Store} {id : JobId} {job : Job} :
    s.claim id = some (job, s') ↔
      ∃ old, s.get? id = some old ∧ old.status = .pending ∧ job = old.started ∧
        s' = s.set id old.started := by
  unfold claim
  cases hg : s.get? id with
  | none => simp
  | some old =>
    by_cases hp : old.status = .pending
    · simp only [Job.claimed_of_pending hp, Option.some.injEq, Prod.mk.injEq, hp, exists_eq_left',
        true_and]
      constructor
      · rintro ⟨rfl, rfl⟩; exact ⟨rfl, rfl⟩
      · rintro ⟨rfl, rfl⟩; exact ⟨rfl, rfl⟩
    · simp [Job.claimed_of_not_pending hp, hp]

theorem claim_eq_none_iff {s : Store} {id : JobId} :
    s.claim id = none ↔ ∀ job, s.get? id = some job → job.status ≠ .pending := by
  unfold claim
  cases hg : s.get? id with
  | none => simp
  | some old =>
    by_cases hp : old.status = .pending
    · simp [Job.claimed_of_pending hp, hp]
    · simp [Job.claimed_of_not_pending hp, hp]

theorem reportSuccess_eq_ok_iff {s s' : Store} {id : JobId} :
    s.reportSuccess id = .ok s' ↔
      ∃ old, s.get? id = some old ∧ old.status = .processing ∧
        s' = s.set id (old.reported .success) := by
  unfold reportSuccess
  cases hg : s.get? id with
  | none => simp
  | some old =>
    by_cases hp : old.status = .processing
    · simp only [Job.succeeded_of_processing hp, Except.map, Except.ok.injEq, Option.some.injEq, hp,
        exists_eq_left', true_and]
      exact eq_comm
    · simp [Job.succeeded_of_not_processing hp, Except.map, hp]

theorem reportFailure_eq_ok_iff {s s' : Store} {id : JobId} {reason : String} {verdict : Verdict} :
    s.reportFailure id reason = .ok (verdict, s') ↔
      ∃ old, s.get? id = some old ∧ old.status = .processing ∧ verdict = old.verdict ∧
        s' = s.set id (old.reported (.failure reason)) := by
  unfold reportFailure
  cases hg : s.get? id with
  | none => simp
  | some old =>
    by_cases hp : old.status = .processing
    · simp only [Job.failedWith_of_processing hp, Except.map, Except.ok.injEq, Option.some.injEq,
        hp, exists_eq_left', true_and, Prod.mk.injEq]
      constructor
      · rintro ⟨rfl, rfl⟩; exact ⟨rfl, rfl⟩
      · rintro ⟨rfl, rfl⟩; exact ⟨rfl, rfl⟩
    · simp [Job.failedWith_of_not_processing hp, Except.map, hp]

theorem recoverEntries_eq (es : List Entry) :
    recoverEntries es =
      .ok (es.countP fun e => e.job.lapsed, es.map fun e => { e with job := e.job.swept }) := by
  induction es with
  | nil => rfl
  | cons e es ih =>
    rw [recoverEntries, Job.recovered_eq, ih]
    cases hl : e.job.lapsed <;> simp [bind, Except.bind, pure, Except.pure, hl]

/-- A sweep whose token has not fired sends back exactly the lapsed jobs. -/
theorem recoverEligible_eq (s : Store) :
    s.recoverEligible false = .ok (s.entries.countP fun e => e.job.lapsed, s.swept) := by
  simp [recoverEligible, recoverEntries_eq, Except.map, swept]

theorem create_eq_ok_iff {s s' : Store} {job : Job} {cancelled : Bool} :
    s.create job cancelled = .ok s' ↔ cancelled = false ∧
      s' = ⟨(s.entries.filter fun e => e.job.id ≠ job.id) ++ [⟨s.nextSeq, job⟩],
        s.nextSeq + 1⟩ := by
  cases cancelled with
  | true => simp [create]
  | false =>
    simp only [create, Bool.false_eq_true, if_false, Except.ok.injEq, true_and]
    exact eq_comm

/-- After a creation the new record stands under its id, and every other id is as it was. -/
theorem get?_create {s s' : Store} {job : Job} {cancelled : Bool}
    (h : s.create job cancelled = .ok s') (id : JobId) :
    s'.get? id = if id = job.id then some job else s.get? id := by
  obtain ⟨-, rfl⟩ := create_eq_ok_iff.1 h
  simp only [get?, find?, List.find?_append, List.find?_filter]
  by_cases hid : id = job.id
  · subst hid
    have hnone : s.entries.find? (fun e => decide (decide (e.job.id ≠ job.id) = true ∧
        decide (e.job.id = job.id) = true)) = none := by
      rw [List.find?_eq_none]; intro e _; simp
    rw [hnone]
    simp
  · have hp : (fun e : Entry =>
        decide (decide (e.job.id ≠ job.id) = true ∧ decide (e.job.id = id) = true)) =
        fun e => decide (e.job.id = id) := by
      funext e
      by_cases he : e.job.id = id
      · simp [he, hid]
      · simp [he]
    have hne : ¬ job.id = id := fun h' => hid h'.symm
    rw [hp]
    simp [hid, hne]

/-! ## Ids stay distinct -/

theorem ids_map {s : Store} (g : Entry → Entry) (hg : ∀ e, (g e).job.id = e.job.id) :
    ({ s with entries := s.entries.map g } : Store).ids = s.ids := by
  simp [ids, Function.comp_def, hg]

@[simp] theorem ids_swept (s : Store) : s.swept.ids = s.ids := ids_map _ fun e => Job.id_swept e.job

theorem ids_set {s : Store} {id : JobId} {new : Job} (hnew : new.id = id) :
    (s.set id new).ids = s.ids :=
  ids_map _ fun e => by by_cases h : e.job.id = id <;> simp [h, hnew]

theorem Distinct.set {s : Store} (h : s.Distinct) {id : JobId} {new : Job} (hnew : new.id = id) :
    (s.set id new).Distinct := by
  unfold Distinct
  rw [ids_set hnew]
  exact h

theorem Distinct.swept {s : Store} (h : s.Distinct) : s.swept.Distinct := by
  unfold Distinct
  rw [ids_swept]
  exact h

theorem Distinct.create {s s' : Store} (h : s.Distinct) {job : Job} {cancelled : Bool}
    (hc : s.create job cancelled = .ok s') : s'.Distinct := by
  obtain ⟨-, rfl⟩ := create_eq_ok_iff.1 hc
  have hsub : ((s.entries.filter fun e => e.job.id ≠ job.id).map fun e => e.job.id).Nodup :=
    h.sublist (List.filter_sublist.map _)
  simp only [Distinct, ids, List.map_append, List.map_cons, List.map_nil, List.nodup_append,
    List.nodup_singleton, true_and]
  refine ⟨hsub, ?_⟩
  intro a ha b hb
  obtain ⟨e, he, rfl⟩ := List.mem_map.1 ha
  rw [List.mem_singleton.1 hb]
  simpa using (List.mem_filter.1 he).2

/-- A sweep that finds no lapsed record changes nothing. -/
theorem Distinct.swept_eq {s : Store} (h : s.Distinct) (none : s.All (·.lapsed = false)) :
    s.swept = s := by
  have hmap : (s.entries.map fun e => { e with job := e.job.swept }) = s.entries := by
    conv_rhs => rw [← List.map_id' s.entries]
    apply List.map_congr_left
    intro e he
    rw [Job.swept_of_not_lapsed (none _ _ (h.get?_of_mem he))]
  rw [Store.swept, hmap]

/-! ## Properties of all records -/

section
variable {P : Job → Prop} {s s' : Store}

theorem All.set (h : s.All P) {old new : Job} (found : s.get? old.id = some old)
    (hnew : new.id = old.id) (hP : P new) : (s.set old.id new).All P := by
  intro id job hget
  by_cases hid : id = old.id
  · rw [hid, get?_set_self hnew found] at hget
    cases hget
    exact hP
  · rw [get?_set_of_ne hnew hid] at hget
    exact h id job hget

theorem All.swept (h : s.All P) (kept : ∀ job, P job → P job.swept) : s.swept.All P := by
  intro id job hget
  rw [get?_swept, Option.map_eq_some_iff] at hget
  obtain ⟨old, hold, rfl⟩ := hget
  exact kept old (h id old hold)

theorem All.create (h : s.All P) {job : Job} {cancelled : Bool}
    (hc : s.create job cancelled = .ok s') (hP : P job) : s'.All P := by
  intro id other hget
  rw [get?_create hc] at hget
  split at hget
  · cases hget
    exact hP
  · exact h id other hget

/-- A sweep leaves nothing for another one to send back. -/
theorem all_not_lapsed_swept (s : Store) : s.swept.All (·.lapsed = false) := by
  intro id job hget
  rw [get?_swept, Option.map_eq_some_iff] at hget
  obtain ⟨old, -, rfl⟩ := hget
  exact Job.lapsed_swept old

/-- The jobs that are pending after a sweep are those that were due. -/
theorem filter_pending_swept (s : Store) :
    (s.swept.entries.filter fun e => decide (e.job.status = .pending)) =
      (s.entries.filter fun e => e.job.due).map fun e => { e with job := e.job.swept } := by
  simp only [swept, List.filter_map, Function.comp_def, Job.due_eq]

end

/-! ## Totals -/

theorem size_eq_total (s : Store) : s.size = s.total fun _ => 1 := by simp [size, total]

@[simp] theorem size_swept (s : Store) : s.swept.size = s.size := by simp [size, swept]

/-- The number of records with some property is a total. -/
theorem countP_eq_total (s : Store) (p : Job → Bool) :
    (s.entries.countP fun e => p e.job) = s.total fun job => (p job).toNat := by
  unfold total
  induction s.entries with
  | nil => rfl
  | cons e es ih =>
    simp only [List.countP_cons, List.map_cons, List.sum_cons, ih]
    cases p e.job <;> simp [Nat.add_comm]

theorem count_eq_total (s : Store) (status : Status) :
    s.count status = s.total fun job => (decide (job.status = status)).toNat :=
  countP_eq_total s fun job => decide (job.status = status)

theorem total_le_total {s : Store} {f g : Job → Nat} (h : ∀ job, f job ≤ g job) :
    s.total f ≤ s.total g := by
  unfold total
  induction s.entries with
  | nil => exact Nat.le_refl _
  | cons e es ih =>
    rw [List.map_cons, List.map_cons, List.sum_cons, List.sum_cons]
    exact Nat.add_le_add (h e.job) ih

theorem total_add (s : Store) (f g : Job → Nat) :
    (s.total fun job => f job + g job) = s.total f + s.total g := by
  unfold total
  induction s.entries with
  | nil => rfl
  | cons e es ih =>
    simp only [List.map_cons, List.sum_cons, ih]; omega

/-- Every record counts for its status. -/
theorem size_eq_counts (s : Store) :
    s.size = s.count .pending + s.count .processing + s.count .completed + s.count .failed := by
  simp only [size_eq_total, count_eq_total, ← total_add]
  congr 1
  funext job
  cases job.status <;> rfl

@[simp] theorem total_swept (s : Store) (f : Job → Nat) :
    s.swept.total f = s.total fun job => f job.swept := by
  simp [total, swept, Function.comp_def]

/-- Rewriting the one entry of an id changes a sum over all entries by that entry only. -/
theorem sum_rewrite (f : Job → Nat) (new : Job) {es : List Entry}
    (h : (es.map fun e => e.job.id).Nodup) {e : Entry} (he : e ∈ es) :
    ((es.map fun x => if x.job.id = e.job.id then { x with job := new } else x).map
      fun x => f x.job).sum +
      f e.job = (es.map fun x => f x.job).sum + f new := by
  induction es with
  | nil => cases he
  | cons x xs ih =>
    rw [List.map_cons, List.nodup_cons] at h
    simp only [List.map_cons, List.sum_cons]
    rcases List.mem_cons.1 he with rfl | hxs
    · -- No later entry has the id, so the rest is as it was.
      have hrest : (xs.map fun x => if x.job.id = e.job.id then { x with job := new } else x) =
          xs := by
        conv_rhs => rw [← List.map_id' xs]
        apply List.map_congr_left
        intro y hy
        have hne : ¬ y.job.id = e.job.id := fun h' => h.1 (List.mem_map.2 ⟨y, hy, h'⟩)
        simp [hne]
      simp only [hrest, if_true]
      omega
    · have hne : ¬ x.job.id = e.job.id := fun h' => h.1 (List.mem_map.2 ⟨e, hxs, h'.symm⟩)
      have := ih h.2 hxs
      simp only [hne, if_false]
      omega

theorem Distinct.total_set {s : Store} (h : s.Distinct) {id : JobId} {old new : Job}
    (hold : s.get? id = some old) (f : Job → Nat) :
    (s.set id new).total f + f old = s.total f + f new := by
  obtain ⟨e, he, rfl⟩ := mem_of_get? hold
  have hid : e.job.id = id := id_of_get? hold
  subst hid
  exact sum_rewrite f new h he

theorem total_create {s s' : Store} {job : Job} {cancelled : Bool}
    (hc : s.create job cancelled = .ok s') (hfresh : s.get? job.id = none) (f : Job → Nat) :
    s'.total f = s.total f + f job := by
  obtain ⟨-, rfl⟩ := create_eq_ok_iff.1 hc
  have hall : (s.entries.filter fun e => e.job.id ≠ job.id) = s.entries := by
    rw [List.filter_eq_self]
    intro e he
    have hne : e.job.id ≠ job.id := fun h' => get?_eq_none_iff.1 hfresh (List.mem_map.2 ⟨e, he, h'⟩)
    simpa using hne
  rw [total, hall]
  simp [total]

/-- A total, summed over names for the records instead of their entries. -/
theorem Distinct.total_eq {s : Store} (h : s.Distinct) {n : Nat} {names : Fin n → JobId}
    (inj : Function.Injective names) (cover : ∀ id, id ∈ s.ids ↔ ∃ k, names k = id)
    (f : Job → Nat) :
    s.total f = ((List.finRange n).map fun k => ((s.get? (names k)).map f).getD 0).sum := by
  have hperm : s.ids.Perm ((List.finRange n).map names) := by
    apply (List.perm_ext_iff_of_nodup h ((List.nodup_finRange n).map inj)).2
    intro id
    rw [cover, List.mem_map]
    simp
  have hids : s.total f = (s.ids.map fun id => ((s.get? id).map f).getD 0).sum := by
    rw [total, ids, List.map_map]
    congr 1
    apply List.map_congr_left
    intro e he
    simp [h.get?_of_mem he]
  rw [hids, (hperm.map _).sum_nat, List.map_map]
  rfl

end JobPipeline.Store
