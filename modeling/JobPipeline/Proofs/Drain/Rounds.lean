import JobPipeline.Proofs.Drain.Basic
import JobPipeline.Proofs.Sweeper.Run
import Mathlib

/-!
# Sweeping and draining in turns

A sweep buffers as many of the jobs that are due as the queue takes, and the drain after it is done
with all of them. It leaves the records of other ids alone and nothing for the next sweep to send
back, so the number of jobs that are due goes down by the capacity of the queue with every round,
until none is left.
-/

namespace JobPipeline

namespace Store

/-- The ids of the jobs that are due. -/
def dueIds (s : Store) : List JobId := (s.entries.filter fun e => e.job.due).map fun e => e.job.id

theorem length_dueIds (s : Store) : s.dueIds.length = s.entries.countP fun e => e.job.due := by
  rw [dueIds, List.length_map, List.countP_eq_length_filter]

theorem Distinct.nodup_dueIds {s : Store} (h : s.Distinct) : s.dueIds.Nodup :=
  h.sublist (List.filter_sublist.map _)

theorem Distinct.mem_dueIds {s : Store} (h : s.Distinct) {id : JobId} :
    id ∈ s.dueIds ↔ ∃ job, s.get? id = some job ∧ job.due = true := by
  constructor
  · intro hid
    obtain ⟨e, he, rfl⟩ := List.mem_map.1 hid
    obtain ⟨he, hdue⟩ := List.mem_filter.1 he
    exact ⟨e.job, h.get?_of_mem he, hdue⟩
  · rintro ⟨job, hget, hdue⟩
    obtain ⟨e, he, rfl⟩ := mem_of_get? hget
    exact List.mem_map.2 ⟨e, List.mem_filter.2 ⟨he, hdue⟩, id_of_get? hget⟩

theorem perm_dueIds (s : Store) : (s.swept.listPending.map Job.id).Perm s.dueIds := by
  have hperm := (List.mergeSort_perm
    (s.swept.entries.filter fun e => decide (e.job.status = .pending)) Entry.le).map
    fun e => e.job.id
  have hids : (s.swept.entries.filter fun e => decide (e.job.status = .pending)).map
      (fun e => e.job.id) = s.dueIds := by
    rw [filter_pending_swept, List.map_map, dueIds]
    apply List.map_congr_left
    intro e _
    exact Job.id_swept e.job
  rw [hids] at hperm
  rw [listPending, listWhere, List.map_map]
  exact hperm

end Store

namespace Scene

/-- The scene after a sweep that nothing interrupts, while everybody else stands still. -/
def sweep (s : Scene) : Scene := { s with pipeline := (Sweep.run false s.pipeline).2 }

/-- A number of rounds, each of a sweep and a drain to its end. -/
inductive Rounds : Nat → Scene → Scene → Prop
  | none (s : Scene) : Rounds 0 s s
  | next {k : Nat} {s t u : Scene} (drain : s.sweep.DrainsTo t) (drained : t.Drained)
      (rounds : Rounds k t u) :
      Rounds (k + 1) s u

/-- Workers that rest at an empty queue. -/
structure Resting (s : Scene) : Prop where
  idle : s.Idle
  empty : s.queue.buffer = []

/-- At the end of a drain everybody waits, and nothing is buffered. -/
theorem DrainingFrom.at_rest {origin : Pipeline} {s : Scene} (h : s.DrainingFrom origin)
    (drained : s.Drained) :
    ∃ ws, ws ≠ [] ∧ s.actors = ws.map .worker ∧ Draining origin s.pipeline ws ∧
      (∀ w ∈ ws, w = .waiting) ∧
      s.queue.buffer = [] := by
  obtain ⟨ws, staffed, hactors, draining⟩ := h
  obtain ⟨hall, hempty⟩ := draining.at_rest staffed fun i w hw w' p' hs =>
    drained _ ((drains_iff hactors).2 ⟨i, .success, w, w', p', hw, hs, rfl⟩)
  exact ⟨ws, staffed, hactors, draining, hall, hempty⟩

/-- A drain to its end leaves the workers as it found them. -/
theorem Idle.resting_of_drained {s t : Scene} (h : s.Idle) (drain : s.DrainsTo t)
    (drained : t.Drained) : t.Resting := by
  obtain ⟨ws, staffed, hactors, draining, hall, hempty⟩ := (h.draining.run drain).at_rest drained
  have hcapacity : t.queue.capacity = s.queue.capacity := draining.capacity
  refine ⟨⟨draining.isOpen, ?_, ?_, draining.distinct, draining.budget, ?_, ?_, draining.nodup,
    ?_⟩, hempty⟩
  · -- capacity
    rw [hcapacity]
    exact h.capacity
  · -- load
    rw [hempty]
    exact Nat.zero_le _
  · -- staffed
    intro hnil
    rw [hactors] at hnil
    exact staffed (List.map_eq_nil_iff.1 hnil)
  · -- resting
    intro a ha
    rw [hactors] at ha
    obtain ⟨w, hw, rfl⟩ := List.mem_map.1 ha
    rw [hall w hw]
    exact .inr rfl
  · -- seated
    intro r
    rw [hactors, seat_map]
    exact draining.seated r

/-- After a sweep the workers are idle still, and the first of the ids that are due are buffered. -/
theorem Resting.swept {s : Scene} (h : s.Resting) :
    s.sweep.Idle ∧ s.sweep.store = s.store.swept ∧ s.sweep.queue.capacity = s.queue.capacity ∧
      s.sweep.queue.buffer = (s.store.swept.listPending.map Job.id).take s.queue.capacity := by
  obtain ⟨hstore, hqueue⟩ := Sweep.run_eq h.idle.isOpen
  have hbuffer :
      s.sweep.queue.buffer = (s.store.swept.listPending.map Job.id).take s.queue.capacity := by
    have hempty : s.pipeline.queue.buffer = [] := h.empty
    simp only [sweep, Scene.queue, hqueue, hempty, List.nil_append, List.length_nil, Nat.sub_zero]
  refine ⟨⟨?_, ?_, ?_, ?_, ?_, h.idle.staffed, h.idle.resting, ?_, ?_⟩, hstore, ?_, hbuffer⟩
  · -- isOpen
    simp only [sweep, Scene.queue, hqueue]
    exact h.idle.isOpen
  · -- capacity
    simp only [sweep, Scene.queue, hqueue]
    exact h.idle.capacity
  · -- load
    rw [hbuffer, List.length_take]
    simp only [sweep, Scene.queue, hqueue]
    exact Nat.min_le_left _ _
  · -- distinct
    show (Sweep.run false s.pipeline).2.store.Distinct
    rw [hstore]
    exact h.idle.distinct.swept
  · -- budget
    show (Sweep.run false s.pipeline).2.store.All Job.Budgeted
    rw [hstore]
    apply h.idle.budget.swept
    intro job hb
    rw [Job.Budgeted, Job.maxRetries_swept]
    exact hb
  · -- nodup
    simp only [sweep, Scene.queue, hqueue]
    exact h.idle.nodup
  · -- seated
    simp only [sweep, Scene.queue, hqueue]
    exact h.idle.seated
  · simp only [sweep, Scene.queue, hqueue]

/-- **A round deals with as many jobs that are due as the queue takes.** -/
theorem Resting.round {s t : Scene} (h : s.Resting) (drain : s.sweep.DrainsTo t)
    (drained : t.Drained) :
    t.Resting ∧ t.queue.capacity = s.queue.capacity ∧
      t.store.dueIds.length ≤ s.store.dueIds.length - s.queue.capacity := by
  obtain ⟨idle, hstore, hcapacity, hbuffer⟩ := h.swept
  obtain ⟨ws, -, -, draining, hall, hempty⟩ := (idle.draining.run drain).at_rest drained
  refine ⟨idle.resting_of_drained drain drained, draining.capacity.trans hcapacity, ?_⟩
  have hperm := s.store.perm_dueIds
  have hcalm : s.sweep.store.All (·.lapsed = false) := by
    rw [hstore]; exact s.store.all_not_lapsed_swept
  -- Whatever is due in the end was due before, and not buffered.
  have hleft : ∀ id ∈ t.store.dueIds, id ∈ s.store.dueIds ∧ id ∉ s.sweep.queue.buffer := by
    intro id hid
    obtain ⟨job, hget, hdue⟩ := draining.distinct.mem_dueIds.1 hid
    have hp : job.status = .pending := by
      simpa [Job.due, draining.calm hcalm id job hget] using hdue
    have hfree : id ∉ s.sweep.queue.buffer := by
      intro hb
      exact draining.not_pending hall hempty hb hget hp
    refine ⟨?_, hfree⟩
    have hsame : s.store.swept.get? id = some job := by
      rw [← hstore]; exact (draining.untouched id hfree).symm.trans hget
    rw [Store.get?_swept, Option.map_eq_some_iff] at hsame
    obtain ⟨old, hold, rfl⟩ := hsame
    exact h.idle.distinct.mem_dueIds.2 ⟨old, hold, by rw [Job.due_eq]; simpa using hp⟩
  have hnodup : (t.store.dueIds ++ s.sweep.queue.buffer).Nodup := by
    refine List.nodup_append.2 ⟨draining.distinct.nodup_dueIds, ?_, ?_⟩
    · rw [hbuffer]
      exact (hperm.nodup_iff.2 h.idle.distinct.nodup_dueIds).sublist (List.take_sublist _ _)
    · intro a ha b hb hab
      rw [← hab] at hb
      exact (hleft a ha).2 hb
  have hsub : t.store.dueIds ++ s.sweep.queue.buffer ⊆ s.store.dueIds := by
    intro id hid
    rcases List.mem_append.1 hid with hid | hid
    · exact (hleft id hid).1
    · rw [hbuffer] at hid
      exact hperm.mem_iff.1 (List.mem_of_mem_take hid)
  have hlength := (List.subperm_of_subset hnodup hsub).length_le
  have hfull : s.sweep.queue.buffer.length = min s.queue.capacity s.store.dueIds.length := by
    rw [hbuffer, List.length_take, hperm.length_eq]
  rw [List.length_append, hfull] at hlength
  omega

/-- After enough rounds nothing is due any more. -/
theorem Rounds.dueIds_le {k : Nat} {s t : Scene} (rounds : Rounds k s t) (h : s.Resting) :
    t.Resting ∧ t.store.dueIds.length ≤ s.store.dueIds.length - k * s.queue.capacity := by
  induction rounds with
  | none s => exact ⟨h, by rw [Nat.zero_mul]; exact Nat.le_refl _⟩
  | next drain drained _ ih =>
    obtain ⟨hrest, hcapacity, hround⟩ := h.round drain drained
    obtain ⟨hend, hle⟩ := ih hrest
    refine ⟨hend, ?_⟩
    rw [hcapacity] at hle
    rw [Nat.succ_mul]
    omega

theorem Resting.exists_rounds {s : Scene} (h : s.Resting) (k : Nat) : ∃ t, Rounds k s t := by
  induction k generalizing s with
  | zero => exact ⟨s, .none s⟩
  | succ k ih =>
    obtain ⟨t, drain, drained⟩ := h.swept.1.draining.exists_drained
    obtain ⟨u, hu⟩ := ih (h.round drain drained).1
    exact ⟨u, .next drain drained hu⟩

end Scene

/-- **A bounded queue delays work but does not lose it.** A drain by idle workers comes to an end.
No id that is offered again on the way is refused. In the end the queue is empty and nothing that
was buffered is pending.

Every workload of a drain returns a result, whichever and whenever it likes. Of workloads that panic
nothing is said: such a one takes its worker down with it and leaves its job in `processing`.

So where the queue is empty at the start and `n` jobs are pending or could be sent back, a sweep and
a drain in turns, as often as the capacity goes into `n`, rounded up, can be completed and leave no
job pending. -/
theorem bounded_queue_loses_nothing {s : Scene} (idle : s.Idle) :
    (¬ ∃ run : Nat → Scene, run 0 = s ∧ ∀ k, (run k).Drains (run (k + 1))) ∧
    (∀ t, s.DrainsTo t →
      (∀ job, Actor.handling (.requeueing job) ∈ t.actors → (t.queue.offer job.id).1 = .accepted) ∧
      (t.Drained → t.queue.buffer = [] ∧
        ∀ id ∈ s.queue.buffer, ∀ job, t.store.get? id = some job → job.status ≠ .pending)) ∧
    (s.queue.buffer = [] → ∀ n, n = (s.store.entries.countP fun e => e.job.due) →
      (∃ t, Scene.Rounds ((n + s.queue.capacity - 1) / s.queue.capacity) s t) ∧
      ∀ t, Scene.Rounds ((n + s.queue.capacity - 1) / s.queue.capacity) s t →
        t.store.count .pending = 0) := by
  have draining := idle.draining
  refine ⟨draining.no_infinite_run, ?_, ?_⟩
  · -- one drain
    intro t drain
    constructor
    · intro job hmem
      exact (draining.run drain).offer_accepted hmem
    · intro drained
      obtain ⟨ws, -, -, hdraining, hall, hempty⟩ := (draining.run drain).at_rest drained
      refine ⟨hempty, ?_⟩
      intro id hid job hget
      exact hdraining.not_pending hall hempty hid hget
  · -- sweeps and drains in turns
    intro empty n hn
    have resting : s.Resting := ⟨idle, empty⟩
    refine ⟨resting.exists_rounds _, ?_⟩
    intro t rounds
    have hle := (rounds.dueIds_le resting).2
    rw [Store.length_dueIds, Store.length_dueIds, ← hn] at hle
    -- Rounded up, the quotient times the capacity is no less than `n`.
    have hcapacity := idle.capacity
    have henough : n ≤ (n + s.queue.capacity - 1) / s.queue.capacity * s.queue.capacity := by
      have hdiv := Nat.div_add_mod (n + s.queue.capacity - 1) s.queue.capacity
      have hmod := Nat.mod_lt (n + s.queue.capacity - 1) hcapacity
      rw [Nat.mul_comm] at hdiv
      omega
    have hnone : (t.store.entries.countP fun e => e.job.due) = 0 := by omega
    rw [List.countP_eq_zero] at hnone
    apply List.countP_eq_zero.2
    intro e he hp
    apply hnone e he
    simp only [decide_eq_true_eq] at hp
    simp [Job.due, hp]

/-- Two jobs that are due, a queue for one id, and one worker. -/
def twoDue : Scene :=
  ⟨⟨⟨[⟨0, ⟨⟨"a"⟩, "email_send", .pending, [], 0, 3, none, ⟨0, 0⟩⟩⟩,
      ⟨1, ⟨⟨"b"⟩, "email_send", .failed, [], 1, 3, some "no route", ⟨0, 0⟩⟩⟩], 2⟩,
      .ofCapacity 1, .zero⟩,
    [.worker .looking]⟩

theorem two_rounds_for_twoDue :
    (∃ t, Scene.Rounds 2 twoDue t) ∧ ∀ t, Scene.Rounds 2 twoDue t → t.store.count .pending = 0 := by
  have idle : twoDue.Idle := by
    refine ⟨rfl, Nat.le_refl 1, Nat.zero_le 1, ?_, ?_, List.cons_ne_nil _ _,
      List.forall_mem_singleton.2 (.inl rfl), List.nodup_nil, ?_⟩
    · -- distinct
      show [_, _].Nodup
      decide
    · -- budget
      intro id job hget
      obtain ⟨e, he, rfl⟩ := Store.mem_of_get? hget
      rcases List.mem_cons.1 he with rfl | he
      · show 3 < 4294967295
        decide
      · rw [List.mem_singleton.1 he]
        show 3 < 4294967295
        decide
    · -- seated
      intro r
      refine ⟨nofun, ?_⟩
      intro h
      cases List.mem_singleton.1 (List.mem_of_getElem? h)
  exact (bounded_queue_loses_nothing idle).2.2 rfl 2 rfl

end JobPipeline
