import JobPipeline.Proofs.Store.Listing
import JobPipeline.Proofs.Sweeper.Run
import Mathlib

/-!
# What a sweep does, exactly

The jobs that are due are those that are pending and those that have lapsed. A sweep makes them all
pending and offers them in listing order: the records change in their status only, so the order
after the recovery is the order before (`map_listPending_swept`). `Sweep.Exact` says for every queue
and every ledger what comes of it, whether the queue is open or closed, and whenever the stop signal
fires.
-/

namespace JobPipeline
namespace Store

/-- The ids that a sweep is to offer. -/
theorem map_listPending_swept {s : Store} {due : List Entry}
    (positions : (s.entries.map Entry.seq).Nodup)
    (perm : due.Perm (s.entries.filter fun e => e.job.due))
    (inOrder : due.Pairwise fun a b => a.le b = true) :
    s.swept.listPending.map Job.id = due.map fun e => e.job.id := by
  have positions' := positions.sublist
    ((List.filter_sublist (p := fun e => e.job.due)).map Entry.seq)
  have sorted := mergeSort_map (fun e => { e with job := e.job.swept })
    fun e (_ : e ∈ s.entries.filter fun e => e.job.due) => ⟨rfl, Job.createdAt_swept e.job⟩
  rw [mergeSort_eq_of_perm positions' perm inOrder] at sorted
  rw [listPending, listWhere, filter_pending_swept, sorted, List.map_map, List.map_map]
  exact List.map_congr_left fun e _ => Job.id_swept e.job

end Store

namespace Sweep

/-- A signal that has fired stays so. -/
def Lasting (fired : Nat → Bool) : Prop := ∀ t, fired t = true → fired (t + 1) = true

/-- A lasting signal cuts a stretch of operations in two. -/
theorem Lasting.exists_cut {fired : Nat → Bool} (h : Lasting fired) (t n : Nat) :
    ∃ cut ≤ n, ∀ i < n, fired (t + i) = decide (cut ≤ i) := by
  induction n with
  | zero => exact ⟨0, Nat.le_refl 0, nofun⟩
  | succ n ih =>
    cases last : fired (t + n) with
    | true =>
      obtain ⟨cut, within, hcut⟩ := ih
      refine ⟨cut, Nat.le_succ_of_le within, fun i hi => ?_⟩
      rcases Nat.lt_succ_iff_lt_or_eq.1 hi with hi | rfl
      · exact hcut i hi
      · rw [last, decide_eq_true within]
    | false =>
      refine ⟨n + 1, Nat.le_refl _, fun i hi => ?_⟩
      have still (k : Nat) : fired (t + i) = true → fired (t + i + k) = true := by
        intro early
        induction k with
        | zero => exact early
        | succ k ihk => exact h _ ihk
      have unfired : fired (t + i) ≠ true := by
        intro early
        have := still (n - i) early
        rw [Nat.add_assoc, Nat.add_sub_cancel' (Nat.le_of_lt_succ hi), last] at this
        exact Bool.false_ne_true this
      rw [decide_eq_false (Nat.not_le.2 hi)]
      exact Bool.eq_false_iff.2 unfired

/-- A sweep of an open queue under a lasting signal. -/
theorem exists_runUnder_eq {fired : Nat → Bool} {p : Pipeline} {ids : List JobId}
    (unfired : fired 0 = false) (lasting : Lasting fired) (isOpen : p.queue.isOpen = true)
    (pending : p.store.swept.listPending.map Job.id = ids) :
    let lapsed := p.store.entries.countP fun e => e.job.lapsed
    ∃ tries ≤ ids.length, (∀ i < ids.length, fired (lapsed + 3 + i) = decide (tries ≤ i)) ∧
      let taken := min tries (p.queue.capacity - p.queue.buffer.length)
      runUnder fired p =
        ({ recovered := lapsed, offered := taken, dropped := tries - taken,
           interrupted := decide (tries < ids.length) },
         ⟨p.store.swept, { p.queue with buffer := p.queue.buffer ++ ids.take taken },
          p.ledger.credited lapsed⟩) := by
  intro lapsed
  obtain ⟨tries, within, firing⟩ := lasting.exists_cut (lapsed + 3) ids.length
  exact ⟨tries, within, firing, runUnder_eq unfired isOpen pending within firing⟩

/-- The sweeps of a store whose jobs `due` are due, in this order, with a queue and a ledger.

  * `opened`  — an open queue gets the first ids that are due, as many as it has places for.
  * `reached` — after that every pending id is buffered, or the queue is full.
  * `closed`  — a closed queue gets none. The recovery is made all the same.
  * `fired`   — under a signal that has fired nothing is done.
  * `cut`     — under a signal that fires on the way some offers are still made, and the others are
    not. Each offer is one operation, and there are three and one for each lapsed job before the
    first.
  * `ahead`   — what is buffered then would have been buffered anyway. -/
structure Exact (s : Store) (due : List JobId) (q : Queue) (l : Ledger) : Prop where
  opened : q.isOpen = true →
    let lapsed := s.entries.countP fun e => e.job.lapsed
    let taken := min due.length (q.capacity - q.buffer.length)
    run false ⟨s, q, l⟩ =
      ({ recovered := lapsed, offered := taken, dropped := due.length - taken,
         interrupted := false },
       ⟨s.swept, { q with buffer := q.buffer ++ due.take taken }, l.credited lapsed⟩)
  reached : q.isOpen = true →
    let after := (run false ⟨s, q, l⟩).2
    (∀ job ∈ after.store.listPending, job.id ∈ after.queue.buffer) ∨
      after.queue.capacity ≤ after.queue.buffer.length
  closed : q.isOpen = false → ∀ fired : Nat → Bool, fired 0 = false →
    let lapsed := s.entries.countP fun e => e.job.lapsed
    runUnder fired ⟨s, q, l⟩ =
      ({ recovered := lapsed, offered := 0, dropped := 0, interrupted := decide (due ≠ []) },
       ⟨s.swept, q, l.credited lapsed⟩)
  fired : ∀ fired : Nat → Bool, fired 0 = true →
    runUnder fired ⟨s, q, l⟩ =
      ({ recovered := 0, offered := 0, dropped := 0, interrupted := true }, ⟨s, q, l⟩)
  cut : q.isOpen = true → ∀ fired : Nat → Bool, Lasting fired → fired 0 = false →
    let lapsed := s.entries.countP fun e => e.job.lapsed
    ∃ tries ≤ due.length,
      (∀ i < due.length, fired (lapsed + 3 + i) = decide (tries ≤ i)) ∧
      let taken := min tries (q.capacity - q.buffer.length)
      runUnder fired ⟨s, q, l⟩ =
        ({ recovered := lapsed, offered := taken, dropped := tries - taken,
           interrupted := decide (tries < due.length) },
         ⟨s.swept, { q with buffer := q.buffer ++ due.take taken }, l.credited lapsed⟩)
  ahead : q.isOpen = true → ∀ fired : Nat → Bool, Lasting fired → fired 0 = false →
    (runUnder fired ⟨s, q, l⟩).2.queue.buffer <+: (run false ⟨s, q, l⟩).2.queue.buffer

variable {s : Store} {q : Queue} {l : Ledger} {due : List JobId}

theorem exact_of_pending (pending : s.swept.listPending.map Job.id = due) : Exact s due q l := by
  have opened (isOpen : q.isOpen = true) :=
    run_open (p := ⟨s, q, l⟩) isOpen pending
  have cut (isOpen : q.isOpen = true) (fired : Nat → Bool) (lasting : Lasting fired)
      (unfired : fired 0 = false) :=
    exists_runUnder_eq (p := ⟨s, q, l⟩) unfired lasting isOpen pending
  constructor
  case opened => exact opened
  case reached =>
    intro isOpen
    rw [opened isOpen]
    rcases Nat.le_total due.length (q.capacity - q.buffer.length) with room | full
    · left
      intro job hjob
      have : job.id ∈ due := pending ▸ List.mem_map_of_mem hjob
      simpa [Nat.min_eq_left room] using .inr this
    · right
      simp only [List.length_append, List.length_take, Nat.min_eq_right full]
      omega
  case closed =>
    intro closed fired unfired
    exact runUnder_closed unfired closed pending
  case fired => exact fun fired hfired => runUnder_fired hfired _
  case cut => exact cut
  case ahead =>
    intro isOpen fired lasting unfired
    obtain ⟨tries, within, -, result⟩ := cut isOpen fired lasting unfired
    rw [result, opened isOpen, List.prefix_append_right_inj]
    exact List.take_prefix_take_left (by omega)

end Sweep

/-- **What a sweep does, exactly.** The jobs that are due have one order, and this is the order in
which they are offered, to any queue and with any ledger. -/
theorem Sweep.exact_effect {s : Store} (positions : (s.entries.map Store.Entry.seq).Nodup) :
    ∃ due : List Store.Entry, due.Perm (s.entries.filter fun e => e.job.due) ∧
      due.Pairwise Store.Entry.Before ∧
      ∀ (q : Queue) (l : Ledger), Sweep.Exact s (due.map fun e => e.job.id) q l := by
  have positions' := positions.sublist
    ((List.filter_sublist (p := fun e => e.job.due)).map Store.Entry.seq)
  refine ⟨_, List.mergeSort_perm _ Store.Entry.le, Store.pairwise_before positions', fun q l => ?_⟩
  exact Sweep.exact_of_pending (Store.map_listPending_swept positions (List.mergeSort_perm _ _)
    (Store.pairwise_mergeSort _))

/-- A pending job, an older one that has lapsed, and one that has failed for good. -/
def Store.twoToOffer : Store where
  entries := [
    ⟨0, ⟨⟨"a"⟩, "email_send", .pending, [], 0, 3, none, ⟨9, 0⟩⟩⟩,
    ⟨1, ⟨⟨"b"⟩, "email_send", .failed, [], 4, 3, some "no route", ⟨7, 0⟩⟩⟩,
    ⟨2, ⟨⟨"c"⟩, "image_resize", .failed, [], 1, 3, some "no route", ⟨7, 0⟩⟩⟩]
  nextSeq := 3

/-- There is one place, and the older job gets it. -/
theorem Sweep.exact_effect_on_twoToOffer :
    let q : Queue := { Queue.ofCapacity 2 with buffer := [⟨"x"⟩] }
    let (report, after) := Sweep.run false ⟨Store.twoToOffer, q, .zero⟩
    report = { recovered := 1, offered := 1, dropped := 1, interrupted := false } ∧
      after.queue.buffer = [⟨"x"⟩, ⟨"c"⟩] ∧ after.ledger.retried = 1 ∧ after.ledger.failed = 0 := by
  intro q
  have positions : (Store.twoToOffer.entries.map Store.Entry.seq).Nodup := by decide
  obtain ⟨due, perm, before, exactly⟩ := Sweep.exact_effect positions
  have older : due = [⟨2, _⟩, ⟨0, _⟩] :=
    (Store.mergeSort_eq_of_perm (by decide) perm (before.imp Store.Entry.Before.le)).symm.trans
      (Store.mergeSort_eq_of_perm (by decide) (List.Perm.swap _ _ _) (by decide))
  have opened := (exactly q .zero).opened rfl
  rw [older] at opened
  rw [opened]
  exact ⟨rfl, rfl, rfl, rfl⟩

end JobPipeline
