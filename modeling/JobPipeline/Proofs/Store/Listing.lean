import JobPipeline.Proofs.Store.History
import Mathlib

/-!
# Listings do not depend on the order of the entries

A store is a map, and a map may go through its entries in any order, another one each time. No
listing shows it. Entries are listed by creation time and then by position, and as no two entries
have one position there is one such order only: a list of the same entries in that order is the
listing (`mergeSort_eq_of_perm`).

`Reachable` is any life of a store, with the entries put in another order at any time.
`Store.Mapped` holds all along. From it follows all that listings and counts show, and where in the
listing a new job comes in (`listing_is_canonical`).
-/

namespace JobPipeline

/-- The number of creations that the operation makes. -/
def Operation.creations : Operation → Nat
  | .create _ false => 1
  | _ => 0

/-- The number of jobs in a state. -/
def StatusCounts.of (c : StatusCounts) : Status → UInt64
  | .pending => c.pending
  | .processing => c.processing
  | .completed => c.completed
  | .failed => c.failed

namespace Store

/-! ## The order of a listing -/

/-- Whether `a` is listed before `b`. -/
def Entry.Before (a b : Entry) : Prop :=
  a.job.createdAt ≤ b.job.createdAt ∧ (a.job.createdAt = b.job.createdAt → a.seq < b.seq)

namespace Entry

variable {a b c : Entry}

theorem le_iff : a.le b = true ↔
    a.job.createdAt ≤ b.job.createdAt ∧ (a.job.createdAt = b.job.createdAt → a.seq ≤ b.seq) := by
  by_cases same : a.job.createdAt = b.job.createdAt
  · simp [le, same, Instant.le_refl]
  · simp [le, same]

theorem le_trans (h : a.le b = true) (h' : b.le c = true) : a.le c = true := by
  rw [le_iff] at *
  refine ⟨Instant.le_trans h.1 h'.1, fun same => ?_⟩
  have back : b.job.createdAt ≤ a.job.createdAt := same ▸ h'.1
  have here := Instant.le_antisymm h.1 back
  exact Nat.le_trans (h.2 here) (h'.2 (here ▸ same))

theorem le_total (a b : Entry) : (a.le b || b.le a) = true := by
  rw [Bool.or_eq_true, le_iff, le_iff]
  by_cases same : a.job.createdAt = b.job.createdAt
  · rcases Nat.le_total a.seq b.seq with h | h
    · exact .inl ⟨same ▸ Instant.le_refl _, fun _ => h⟩
    · exact .inr ⟨same ▸ Instant.le_refl _, fun _ => h⟩
  · rcases Instant.le_total a.job.createdAt b.job.createdAt with h | h
    · exact .inl ⟨h, fun h => absurd h same⟩
    · exact .inr ⟨h, fun h => absurd h.symm same⟩

theorem seq_eq_of_le (h : a.le b = true) (h' : b.le a = true) : a.seq = b.seq := by
  rw [le_iff] at h h'
  have same := Instant.le_antisymm h.1 h'.1
  exact Nat.le_antisymm (h.2 same) (h'.2 same.symm)

theorem Before.le (h : a.Before b) : a.le b = true :=
  le_iff.2 ⟨h.1, fun same => Nat.le_of_lt (h.2 same)⟩

theorem before_of_le (h : a.le b = true) (other : a.seq ≠ b.seq) : a.Before b :=
  ⟨(le_iff.1 h).1, fun same => Nat.lt_of_le_of_ne ((le_iff.1 h).2 same) other⟩

end Entry

variable {es es' : List Entry}

theorem pairwise_mergeSort (es : List Entry) :
    (es.mergeSort Entry.le).Pairwise fun a b => a.le b = true := by
  apply List.pairwise_mergeSort
  · exact fun _ _ _ => Entry.le_trans
  · exact Entry.le_total

/-- **There is one order.** Any list of the same entries that is in order is the one that sorting
gives. -/
theorem mergeSort_eq_of_perm (positions : (es.map Entry.seq).Nodup) (perm : es'.Perm es)
    (inOrder : es'.Pairwise fun a b => a.le b = true) : es.mergeSort Entry.le = es' := by
  have perm' := (List.mergeSort_perm es Entry.le).trans perm.symm
  refine List.Perm.eq_of_pairwise (fun a b ha hb hab hba => ?_) (pairwise_mergeSort es) inOrder
    perm'
  exact List.inj_on_of_nodup_map positions ((List.mergeSort_perm es Entry.le).subset ha)
    (perm.subset hb) (Entry.seq_eq_of_le hab hba)

/-- Sorted entries that are all different in position are strictly in order. -/
theorem pairwise_before (positions : (es.map Entry.seq).Nodup) :
    (es.mergeSort Entry.le).Pairwise Entry.Before := by
  have others : (es.mergeSort Entry.le).Pairwise fun a b => a.seq ≠ b.seq := by
    have nodup := ((List.mergeSort_perm es Entry.le).map Entry.seq).nodup_iff.2 positions
    rwa [List.Nodup, List.pairwise_map] at nodup
  exact (pairwise_mergeSort es).imp₂ (fun _ _ => Entry.before_of_le) others

/-- What is sorted and then filtered may as well be filtered and then sorted. -/
theorem filter_mergeSort (positions : (es.map Entry.seq).Nodup) (keep : Entry → Bool) :
    (es.mergeSort Entry.le).filter keep = (es.filter keep).mergeSort Entry.le :=
  (mergeSort_eq_of_perm (positions.sublist (List.filter_sublist.map _))
    ((List.mergeSort_perm es Entry.le).filter keep) ((pairwise_mergeSort es).filter _)).symm

/-- Changes that leave times and positions alone do not change the order. -/
theorem mergeSort_map (g : Entry → Entry)
    (kept : ∀ e ∈ es, (g e).seq = e.seq ∧ (g e).job.createdAt = e.job.createdAt) :
    (es.map g).mergeSort Entry.le = (es.mergeSort Entry.le).map g := by
  refine (List.map_mergeSort fun a ha b hb => ?_).symm
  rw [Entry.le, Entry.le, (kept a ha).1, (kept a ha).2, (kept b hb).1, (kept b hb).2]

/-! ## Stores as maps -/

/-- What holds of the entries of a map that have been inserted one after the other. -/
structure Mapped (s : Store) : Prop where
  distinct : s.Distinct
  positions : (s.entries.map Entry.seq).Nodup
  bounded : ∀ e ∈ s.entries, e.seq < s.nextSeq

/-- The stores that some operations lead to, with the number of creations among them. The entries
may be put in another order at any time. -/
inductive Reachable : Nat → Store → Prop
  | empty : Reachable 0 .empty
  | operate {n : Nat} {s : Store} (life : Reachable n s) (op : Operation) :
      Reachable (n + op.creations) (s.apply op)
  | reorder {n : Nat} {s : Store} (life : Reachable n s) {es : List Entry}
      (perm : es.Perm s.entries) : Reachable n { s with entries := es }

variable {s : Store}

theorem Mapped.reorder (h : s.Mapped) (perm : es.Perm s.entries) :
    ({ s with entries := es } : Store).Mapped where
  distinct := (perm.map _).nodup_iff.2 h.distinct
  positions := (perm.map _).nodup_iff.2 h.positions
  bounded e he := h.bounded e (perm.subset he)

theorem Mapped.map (h : s.Mapped) (g : Entry → Entry)
    (kept : ∀ e, (g e).seq = e.seq ∧ (g e).job.id = e.job.id) :
    ({ s with entries := s.entries.map g } : Store).Mapped where
  distinct := by
    rw [Distinct, ids_map g fun e => (kept e).2]
    exact h.distinct
  positions := by
    have same : Entry.seq ∘ g = Entry.seq := funext fun e => (kept e).1
    rw [List.map_map, same]
    exact h.positions
  bounded e he := by
    obtain ⟨e', he', rfl⟩ := List.mem_map.1 he
    rw [(kept e').1]
    exact h.bounded e' he'

theorem Mapped.create (h : s.Mapped) {job : Job} {s' : Store}
    (wrote : s.create job false = .ok s') : s'.Mapped := by
  have distinct := h.distinct.create wrote
  obtain ⟨-, rfl⟩ := create_eq_ok_iff.1 wrote
  refine ⟨distinct, ?_, ?_⟩
  · rw [List.map_append, List.nodup_append]
    refine ⟨h.positions.sublist (List.filter_sublist.map _), List.nodup_singleton _, ?_⟩
    rintro _ ha _ hb rfl
    obtain ⟨e, he, hseq⟩ := List.mem_map.1 ha
    have before := h.bounded e (List.mem_filter.1 he).1
    rw [hseq, List.mem_singleton.1 hb] at before
    exact Nat.lt_irrefl _ before
  · intro e he
    rcases List.mem_append.1 he with he | he
    · exact Nat.lt_succ_of_lt (h.bounded e (List.mem_filter.1 he).1)
    · rw [List.mem_singleton.1 he]
      exact Nat.lt_succ_self _

/-- An operation other than a creation rewrites the records of entries that stay what they are. -/
theorem exists_map_of_apply (distinct : s.Distinct) {op : Operation}
    (notCreate : ∀ job cancelled, op ≠ .create job cancelled) :
    ∃ g : Entry → Entry, s.apply op = { s with entries := s.entries.map g } ∧
      ∀ e, ((g e).seq = e.seq ∧ (g e).job.id = e.job.id) ∧
        (e ∈ s.entries → (g e).job.createdAt = e.job.createdAt) := by
  cases s.performs op with
  | refused same => exact ⟨id, by rw [same, List.map_id], fun e => ⟨⟨rfl, rfl⟩, fun _ => rfl⟩⟩
  | @changed old new _ found change wrote =>
    refine ⟨_, wrote, fun e => ?_⟩
    by_cases here : e.job.id = old.id
    · rw [if_pos here]
      refine ⟨⟨rfl, change.id_eq.trans here.symm⟩, fun he => ?_⟩
      have stored := distinct.get?_of_mem he
      rw [here, found, Option.some.injEq] at stored
      rw [← stored]
      cases change <;> rfl
    · rw [if_neg here]
      exact ⟨⟨rfl, rfl⟩, fun _ => rfl⟩
  | created isCreation => exact absurd isCreation (notCreate _ _)
  | swept wrote =>
    exact ⟨_, wrote, fun e => ⟨⟨rfl, Job.id_swept e.job⟩, fun _ => Job.createdAt_swept e.job⟩⟩

theorem Reachable.mapped {n : Nat} (life : Reachable n s) : s.Mapped ∧ s.nextSeq = n := by
  induction life with
  | empty => exact ⟨⟨List.nodup_nil, List.nodup_nil, nofun⟩, rfl⟩
  | @operate n s _ op ih =>
    obtain ⟨mapped, rfl⟩ := ih
    by_cases creation : ∃ job, op = .create job false
    · obtain ⟨job, rfl⟩ := creation
      exact ⟨mapped.create rfl, rfl⟩
    · by_cases refused : ∃ job, op = .create job true
      · obtain ⟨job, rfl⟩ := refused
        exact ⟨mapped, rfl⟩
      · have notCreate : ∀ job cancelled, op ≠ .create job cancelled := by
          rintro job (_ | _) rfl
          · exact creation ⟨job, rfl⟩
          · exact refused ⟨job, rfl⟩
        obtain ⟨g, happly, kept⟩ := exists_map_of_apply mapped.distinct notCreate
        have none : op.creations = 0 := by
          cases op with
          | create job cancelled => exact absurd rfl (notCreate job cancelled)
          | _ => rfl
        rw [happly, none]
        exact ⟨mapped.map g fun e => (kept e).1, rfl⟩
  | reorder _ perm ih => exact ⟨ih.1.reorder perm, ih.2⟩

/-! ## What a listing shows -/

section
variable {job : Job}

theorem list_eq (s : Store) : s.list = (s.entries.mergeSort Entry.le).map Entry.job := by
  rw [list, listWhere, List.filter_eq_self.2 fun _ _ => rfl]

theorem Mapped.listWhere_eq (h : s.Mapped) (keep : Job → Bool) :
    s.listWhere keep = s.list.filter keep := by
  rw [listWhere, list_eq, ← filter_mergeSort h.positions, List.filter_map]
  rfl

/-- The entries in another order give the same listing. -/
theorem Mapped.list_reorder (h : s.Mapped) (perm : es.Perm s.entries) :
    ({ s with entries := es } : Store).list = s.list := by
  have sorted := (List.mergeSort_perm s.entries Entry.le).trans perm.symm
  rw [list_eq, list_eq, mergeSort_eq_of_perm (h.reorder perm).positions sorted
    (pairwise_mergeSort _)]

theorem mem_list_iff_entry : job ∈ s.list ↔ ∃ e ∈ s.entries, e.job = job := by
  rw [list_eq, List.mem_map]
  simp only [(List.mergeSort_perm s.entries Entry.le).mem_iff]

theorem Mapped.get?_eq_some_iff (h : s.Mapped) {id : JobId} :
    s.get? id = some job ↔ job ∈ s.list ∧ job.id = id := by
  rw [mem_list_iff_entry]
  constructor
  · exact fun found => ⟨mem_of_get? found, id_of_get? found⟩
  · rintro ⟨⟨e, he, rfl⟩, rfl⟩
    exact h.distinct.get?_of_mem he

theorem length_filter_list (s : Store) (status : Status) :
    (s.list.filter fun job => job.status = status).length = s.count status := by
  have perm := (List.mergeSort_perm s.entries Entry.le).map Entry.job
  rw [list_eq, (perm.filter _).length_eq, List.filter_map, List.length_map, count,
    List.countP_eq_length_filter]
  rfl

theorem length_list (s : Store) : s.list.length = s.size := by
  rw [list_eq, List.length_map, (List.mergeSort_perm s.entries Entry.le).length_eq, size]

/-- Every entry takes up a position. -/
theorem Mapped.size_le (h : s.Mapped) : s.size ≤ s.nextSeq := by
  have within : s.entries.map Entry.seq ⊆ List.range s.nextSeq := by
    intro i hi
    obtain ⟨e, he, rfl⟩ := List.mem_map.1 hi
    exact List.mem_range.2 (h.bounded e he)
  have := (List.subperm_of_subset h.positions within).length_le
  rwa [List.length_map, List.length_range] at this

/-- The counts are exact as long as there are no more jobs than a word can count. -/
theorem toNat_statusCounts (few : s.size < 2 ^ 64) (status : Status) :
    (s.statusCounts.of status).toNat = (s.list.filter fun job => job.status = status).length := by
  have least : s.count status ≤ s.size := List.countP_le_length
  have exact_ : (UInt64.ofNat (s.count status)).toNat = s.count status :=
    UInt64.toNat_ofNat_of_lt' (Nat.lt_of_le_of_lt least few)
  rw [length_filter_list, ← exact_]
  cases status <;> rfl

theorem toNat_total_statusCounts (few : s.size < 2 ^ 64) :
    s.statusCounts.total.toNat = s.size := by
  have parts := s.size_eq_counts
  have counts := fun status => (toNat_statusCounts few status).trans (s.length_filter_list status)
  have pending : s.statusCounts.pending.toNat = s.count .pending := counts .pending
  have processing : s.statusCounts.processing.toNat = s.count .processing := counts .processing
  have completed : s.statusCounts.completed.toNat = s.count .completed := counts .completed
  have failed : s.statusCounts.failed.toNat = s.count .failed := counts .failed
  simp only [StatusCounts.total, UInt64.toNat_add, pending, processing, completed, failed]
  omega

/-! ## What operations do to a listing -/

/-- A new job stands behind the others that are not younger. -/
theorem Mapped.list_create (h : s.Mapped) {s' : Store} (wrote : s.create job false = .ok s') :
    s'.list =
      (s.list.filter fun other => other.id ≠ job.id ∧ other.createdAt ≤ job.createdAt) ++
        job :: s.list.filter fun other => other.id ≠ job.id ∧ ¬ other.createdAt ≤ job.createdAt := by
  have positions := (h.create wrote).positions
  obtain ⟨-, rfl⟩ := create_eq_ok_iff.1 wrote
  let sorted := s.entries.mergeSort Entry.le
  let others := sorted.filter fun e => decide (e.job.id ≠ job.id)
  let older (e : Entry) : Bool := decide (e.job.createdAt ≤ job.createdAt)
  let new : Entry := ⟨s.nextSeq, job⟩
  have perm : (others.filter older ++ new :: others.filter fun e => !older e).Perm
      ((s.entries.filter fun e => decide (e.job.id ≠ job.id)) ++ [new]) := by
    have split : (others.filter older ++ others.filter fun e => !older e).Perm others :=
      List.filter_append_perm older others
    have same : others.Perm (s.entries.filter fun e => decide (e.job.id ≠ job.id)) :=
      (List.mergeSort_perm s.entries Entry.le).filter _
    exact List.perm_middle.trans (((split.trans same).cons new).trans
      (List.perm_append_singleton new _).symm)
  have inOrder : others.Pairwise fun a b => a.le b = true := (pairwise_mergeSort s.entries).filter _
  have first (e : Entry) (he : e ∈ others.filter older) : e.le new = true := by
    obtain ⟨he, hold⟩ := List.mem_filter.1 he
    have stored := (List.mergeSort_perm s.entries Entry.le).subset (List.mem_filter.1 he).1
    exact Entry.le_iff.2 ⟨of_decide_eq_true hold, fun _ => Nat.le_of_lt (h.bounded e stored)⟩
  have last (e : Entry) (he : e ∈ others.filter fun e => !older e) : new.le e = true := by
    have young : ¬ e.job.createdAt ≤ job.createdAt := by simpa [older] using (List.mem_filter.1 he).2
    refine Entry.le_iff.2 ⟨(Instant.le_total _ _).resolve_left young, fun same => ?_⟩
    exact absurd (same ▸ Instant.le_refl _) young
  have lined : (others.filter older ++ new :: others.filter fun e => !older e).Pairwise
      fun a b => a.le b = true := by
    rw [List.pairwise_append, List.pairwise_cons]
    refine ⟨inOrder.filter _, ⟨last, inOrder.filter _⟩, fun a ha b hb => ?_⟩
    rcases List.mem_cons.1 hb with rfl | hb
    · exact first a ha
    · exact Entry.le_trans (first a ha) (last b hb)
  rw [list_eq, mergeSort_eq_of_perm positions perm lined, list_eq, List.map_append, List.map_cons]
  simp only [others, List.filter_filter, List.filter_map]
  congr 2
  · refine List.filter_congr fun e _ => ?_
    simp [older, Bool.and_comm]
  · congr 1
    refine List.filter_congr fun e _ => ?_
    simp [older, Bool.and_comm]

/-- No other operation moves a job in the listing. -/
theorem Mapped.list_apply (h : s.Mapped) {op : Operation}
    (notCreate : ∀ job cancelled, op ≠ .create job cancelled) :
    (s.apply op).list.map Job.id = s.list.map Job.id := by
  obtain ⟨g, happly, kept⟩ := exists_map_of_apply h.distinct notCreate
  rw [happly, list_eq, list_eq, mergeSort_map g fun e he => ⟨(kept e).1.1, (kept e).2 he⟩]
  simp only [List.map_map]
  exact List.map_congr_left fun e _ => (kept e).1.2

end

/-- What a store lists and counts.

  * `ids`, `positions` — each entry has an id and a position of its own, and its position fits
    in a word.
  * `order`   — the listing has every entry once, by creation time and then by position.
  * `found`   — what is listed is found under its id, and nothing else is.
  * `pending`, `failed` — these listings are parts of the whole one.
  * `counts`, `total`, `size` — what is counted is what is listed.
  * `created` — a new job takes the place of one with the same id, and comes right behind the last
    other job that is not younger.
  * `applied` — no other operation moves a job. -/
structure Lists (s : Store) : Prop where
  ids : s.ids.Nodup
  positions : (s.entries.map Entry.seq).Nodup ∧ ∀ e ∈ s.entries, e.seq < 2 ^ 64
  order : ∃ es : List Entry, es.Perm s.entries ∧ es.Pairwise Entry.Before ∧ s.list = es.map Entry.job
  found : ∀ id job, s.get? id = some job ↔ job ∈ s.list ∧ job.id = id
  pending : s.listPending = s.list.filter fun job => job.status = .pending
  failed : s.listFailed = s.list.filter fun job => job.status = .failed
  counts : ∀ status, (s.statusCounts.of status).toNat =
    (s.list.filter fun job => job.status = status).length
  total : s.statusCounts.total.toNat = s.size
  size : s.size = s.list.length
  created : ∀ job s', s.create job false = .ok s' → s'.list =
    (s.list.filter fun other => other.id ≠ job.id ∧ other.createdAt ≤ job.createdAt) ++
      job :: s.list.filter fun other => other.id ≠ job.id ∧ ¬ other.createdAt ≤ job.createdAt
  applied : ∀ op, (∀ job cancelled, op ≠ .create job cancelled) →
    (s.apply op).list.map Job.id = s.list.map Job.id

theorem Mapped.lists (h : s.Mapped) (few : s.nextSeq < 2 ^ 64) : s.Lists where
  ids := h.distinct
  positions := ⟨h.positions, fun e he => Nat.lt_trans (h.bounded e he) few⟩
  order := ⟨_, List.mergeSort_perm _ _, pairwise_before h.positions, list_eq s⟩
  found _ _ := h.get?_eq_some_iff
  pending := h.listWhere_eq _
  failed := h.listWhere_eq _
  counts := toNat_statusCounts (Nat.lt_of_le_of_lt h.size_le few)
  total := toNat_total_statusCounts (Nat.lt_of_le_of_lt h.size_le few)
  size := s.length_list.symm
  created _ _ := h.list_create
  applied _ := h.list_apply

/-- **What a store lists and counts does not depend on the order of its entries.** After any life
with fewer creations than a word can number, the listing is in order and complete, and the entries
in any other order give the same listings, counts and look-ups. -/
theorem listing_is_canonical {n : Nat} (life : Reachable n s) (few : n < 2 ^ 64) :
    s.Lists ∧ ∀ es, es.Perm s.entries →
      ({ s with entries := es } : Store).Lists ∧
      ({ s with entries := es } : Store).list = s.list ∧
      ({ s with entries := es } : Store).listPending = s.listPending ∧
      ({ s with entries := es } : Store).listFailed = s.listFailed ∧
      ({ s with entries := es } : Store).statusCounts = s.statusCounts ∧
      ({ s with entries := es } : Store).size = s.size ∧
      ∀ id, ({ s with entries := es } : Store).get? id = s.get? id := by
  obtain ⟨mapped, rfl⟩ := life.mapped
  refine ⟨mapped.lists few, fun es perm => ?_⟩
  have mapped' := mapped.reorder perm
  have list := mapped.list_reorder perm
  have here := mapped.lists few
  have there := mapped'.lists few
  refine ⟨there, list, ?_, ?_, ?_, perm.length_eq, fun id => ?_⟩
  · rw [there.pending, here.pending, list]
  · rw [there.failed, here.failed, list]
  · simp only [statusCounts, count, perm.countP_eq]
  · exact Option.ext fun job => by rw [there.found, here.found, list]

/-- A job created anew goes behind the one that was created at the same instant and claimed since. A
store with the two entries the other way round lists them alike. -/
theorem listing_of_replacement :
    let job (id : String) (kind : String) : Job := .new ⟨id⟩ ⟨5, 0⟩ kind []
    let s := applyAll .empty [.create (job "a" "email_send") false,
      .create (job "b" "email_send") false, .claim ⟨"b"⟩,
      .create (job "a" "image_resize") false]
    s.list.map Job.id = [⟨"b"⟩, ⟨"a"⟩] ∧
    ({ s with entries := s.entries.reverse } : Store).list = s.list ∧
    (s.statusCounts.of .processing).toNat = 1 ∧ s.statusCounts.total.toNat = 2 := by
  intro job s
  have life : Reachable 3 s :=
    (((Reachable.empty.operate (.create (job "a" "email_send") false)).operate
      (.create (job "b" "email_send") false)).operate (.claim ⟨"b"⟩)).operate
        (.create (job "a" "image_resize") false)
  obtain ⟨lists, others⟩ := listing_is_canonical life (by decide)
  have list : s.list = [(job "b" "email_send").started, job "a" "image_resize"] := by
    rw [list_eq, mergeSort_eq_of_perm lists.positions.1 (.refl _) (by decide +kernel)]
    rfl
  refine ⟨by rw [list]; rfl, (others _ s.entries.reverse_perm).2.1, ?_, ?_⟩
  · rw [lists.counts, list]; rfl
  · rw [lists.total]; rfl

end Store
end JobPipeline
