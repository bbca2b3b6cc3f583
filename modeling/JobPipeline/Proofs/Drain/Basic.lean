import JobPipeline.Proofs.Drain.Toil
import Mathlib

/-!
# Draining the queue

A drain starts with an open queue and idle workers (`Scene.Idle`), and goes on in any order for as
long as anybody can do anything (`Scene.Drains`). It comes to an end, because every move leaves less
labour. No id that a worker offers again is refused: the ids in the buffer and those in flight are
never more than the queue takes, and the one that is offered is in flight. And a buffered id whose
job is pending stays buffered or escorted, so in the end, when nothing is buffered and nobody is at
work, there is none.
-/

namespace JobPipeline

/-- The shared parts and the workers in a drain of `origin`.

  * `seated`    — the line at the queue is that of the waiting workers.
  * `load`      — what is buffered and what is in flight fit into the queue.
  * `escorted`  — a pending job that was buffered at the start still is, or is in somebody's hands.
  * `within`    — only ids that were buffered at the start are buffered.
  * `own`       — nor is anybody busy with others.
  * `untouched` — so the other records are as they were.
  * `calm`      — a drain leaves nothing for a sweep to send back. -/
structure Draining (origin p : Pipeline) (ws : List Worker) : Prop where
  isOpen : p.queue.isOpen = true
  capacity : p.queue.capacity = origin.queue.capacity
  distinct : p.store.Distinct
  budget : p.store.All Job.Budgeted
  keen : ∀ w ∈ ws, w.Keen
  nodup : p.queue.suspended.Nodup
  seated : ∀ r, r ∈ p.queue.suspended ↔ ws[r]? = some .waiting
  load : p.queue.buffer.length + (ws.map Worker.inFlight).sum ≤ p.queue.capacity
  escorted : ∀ id ∈ origin.queue.buffer, ∀ job, p.store.get? id = some job → job.status = .pending →
    id ∈ p.queue.buffer ∨ ∃ w ∈ ws, w.escorted? = some id
  within : ∀ id ∈ p.queue.buffer, id ∈ origin.queue.buffer
  own : ∀ w ∈ ws, ∀ id, w.id? = some id → id ∈ origin.queue.buffer
  untouched : ∀ id, id ∉ origin.queue.buffer → p.store.get? id = origin.store.get? id
  calm : origin.store.All (·.lapsed = false) → p.store.All (·.lapsed = false)

namespace Draining

variable {origin p p' : Pipeline} {ws : List Worker} {i : Nat} {w w' : Worker}

/-- The labour left for all. -/
def left (p : Pipeline) (ws : List Worker) : Nat := p.labour + (ws.map Worker.toGo).sum

theorem room (h : Draining origin p ws) (hw : w ∈ ws) :
    p.queue.buffer.length + w.inFlight ≤ p.queue.capacity := by
  have hle : w.inFlight ≤ (ws.map Worker.inFlight).sum :=
    List.single_le_sum (fun _ _ => Nat.zero_le _) _ (List.mem_map_of_mem hw)
  exact Nat.le_trans (Nat.add_le_add_left hle _) h.load

/-- **What a worker does keeps a drain going.** -/
theorem step (h : Draining origin p ws) (hw : ws[i]? = some w) (toils : w.Toils i p w' p') :
    Draining origin p' (ws.set i w') := by
  have hmem := List.mem_of_getElem? hw
  have hlt := (List.getElem?_eq_some_iff.1 hw).1
  have hmine : i ∈ p.queue.suspended ↔ w = .waiting := by rw [h.seated, hw, Option.some.injEq]
  obtain ⟨hnodup, hself, hothers⟩ := toils.seated h.nodup hmine
  obtain ⟨hwithin, hown, huntouched⟩ := toils.within h.within (h.own w hmem)
  obtain ⟨hopen, hcapacity⟩ := toils.frame
  refine ⟨hopen.trans h.isOpen, hcapacity.trans h.capacity, toils.distinct h.distinct, ?_, ?_,
    hnodup, ?_, ?_, ?_, hwithin, ?_, ?_, ?_⟩
  · -- budget
    refine toils.records h.budget (fun _ hb => hb) ?_
    intro job result hb
    rw [Job.Budgeted, Job.maxRetries_reported]
    exact hb
  · -- keen
    intro v hv
    rcases List.mem_or_eq_of_mem_set hv with hv | rfl
    · exact h.keen v hv
    · exact toils.keen
  · -- seated
    intro r
    by_cases hri : r = i
    · subst hri; rw [hself, List.getElem?_set_self hlt, Option.some.injEq]
    · rw [hothers r hri, h.seated, List.getElem?_set_ne (Ne.symm hri)]
  · -- load
    have hsum := sum_map_set Worker.inFlight hw w'
    have hle := toils.load_le
    have := h.load
    omega
  · -- escorted
    intro id hid job hget hp
    rcases toils.pending h.isOpen (h.room hmem) hget hp with he | hb | ⟨hsame, hfree, hgone⟩
    · exact .inr ⟨w', List.mem_set hlt w', he⟩
    · exact .inl hb
    · -- Somebody else escorts the id, and still does.
      obtain ⟨v, hv, he⟩ := (h.escorted id hid job hsame hp).resolve_left hgone
      obtain ⟨j, hj⟩ := List.mem_iff_getElem?.1 hv
      have hji : i ≠ j := by
        rintro rfl
        obtain rfl : w = v := Option.some.inj (hw.symm.trans hj)
        exact hfree he
      exact .inr ⟨v, List.mem_of_getElem? (by rw [List.getElem?_set_ne hji]; exact hj), he⟩
  · -- own
    intro v hv id hid
    rcases List.mem_or_eq_of_mem_set hv with hv | rfl
    · exact h.own v hv id hid
    · exact hown id hid
  · -- untouched
    intro id hid
    rw [huntouched id hid, h.untouched id hid]
  · -- calm
    intro hcalm
    apply toils.records (h.calm hcalm)
    · intro job _
      exact Job.lapsed_started job
    · intro job result _
      exact Job.lapsed_reported result job

/-- **Every move leaves less labour.** -/
theorem left_lt (h : Draining origin p ws) (hw : ws[i]? = some w) (toils : w.Toils i p w' p') :
    left p' (ws.set i w') < left p ws := by
  have hsum := sum_map_set Worker.toGo hw w'
  have := toils.descends h.distinct h.budget
  simp only [left]
  omega

/-- When nobody can go on, all wait for ids and there are none. -/
theorem at_rest (h : Draining origin p ws) (staffed : ws ≠ [])
    (stuck : ∀ (i : Nat) (w : Worker), ws[i]? = some w →
      ∀ w' p', w.step i ⟨false, .result .success⟩ p ≠ some (w', p')) :
    (∀ w ∈ ws, w = .waiting) ∧ p.queue.buffer = [] := by
  have hall : ∀ w ∈ ws, w = .waiting := by
    intro w hw
    by_contra hne
    obtain ⟨i, hi⟩ := List.mem_iff_getElem?.1 hw
    obtain ⟨w', p', hs⟩ := (h.keen w hw).can_step hne i p
    exact stuck i w hi w' p' hs
  refine ⟨hall, ?_⟩
  by_contra hbuffered
  obtain ⟨w, hw⟩ := List.exists_mem_of_ne_nil ws staffed
  obtain ⟨i, hi⟩ := List.mem_iff_getElem?.1 hw
  have hseat : i ∈ p.queue.suspended := by rw [h.seated, hi, hall w hw]
  obtain ⟨r, behind, hfirst⟩ := List.exists_cons_of_ne_nil (List.ne_nil_of_mem hseat)
  have hr : ws[r]? = some .waiting := by rw [← h.seated, hfirst]; exact List.mem_cons_self
  obtain ⟨w', p', hs⟩ := Worker.can_serve hfirst hbuffered
  exact stuck r .waiting hr w' p' hs

/-- At rest, nothing that was buffered at the start is pending. -/
theorem not_pending (h : Draining origin p ws) (rest : ∀ w ∈ ws, w = .waiting)
    (empty : p.queue.buffer = []) {id : JobId} (hid : id ∈ origin.queue.buffer) {job : Job}
    (hget : p.store.get? id = some job) : job.status ≠ .pending := by
  intro hp
  rcases h.escorted id hid job hget hp with hb | ⟨w, hw, he⟩
  · rw [empty] at hb; cases hb
  · rw [rest w hw] at he; cases he

end Draining

/-- How far a worker has to go. Nobody else is at work in a drain. -/
def Actor.toGo : Actor → Nat
  | .worker w => w.toGo
  | _ => 0

namespace Scene

/-- A move in a drain: nothing stops whoever makes it, and a workload that ends with it returns a
result, any one. No workload panics in a drain. -/
def Drains (s s' : Scene) : Prop := ∃ i result, s.step (.act i ⟨false, .result result⟩) = some s'

def DrainsTo : Scene → Scene → Prop := Relation.ReflTransGen Drains

/-- Nobody can go on. -/
def Drained (s : Scene) : Prop := ∀ s', ¬ s.Drains s'

/-- Workers that rest at an open queue.

  * `staffed` — there is a worker.
  * `resting` — nobody is at work on an id, or on anything else.
  * `seated`  — the line at the queue is that of the waiting workers. -/
structure Idle (s : Scene) : Prop where
  isOpen : s.queue.isOpen = true
  capacity : 1 ≤ s.queue.capacity
  load : s.queue.buffer.length ≤ s.queue.capacity
  distinct : s.store.Distinct
  budget : s.store.All Job.Budgeted
  staffed : s.actors ≠ []
  resting : ∀ a ∈ s.actors, a = .worker .looking ∨ a = .worker .waiting
  nodup : s.queue.suspended.Nodup
  seated : ∀ r, r ∈ s.queue.suspended ↔ s.actors[r]? = some (.worker .waiting)

/-- The labour left in the shared parts and for all workers. -/
def left (s : Scene) : Nat := s.pipeline.labour + (s.actors.map Actor.toGo).sum

/-- A scene in a drain of `origin`. -/
def DrainingFrom (origin : Pipeline) (s : Scene) : Prop :=
  ∃ ws, ws ≠ [] ∧ s.actors = ws.map .worker ∧ Draining origin s.pipeline ws

theorem seat_map {ws : List Worker} {r : Nat} {w : Worker} :
    (ws.map Actor.worker)[r]? = some (.worker w) ↔ ws[r]? = some w := by
  rw [List.getElem?_map, Option.map_eq_some_iff]
  constructor
  · rintro ⟨v, hv, h⟩; cases h; exact hv
  · intro h; exact ⟨w, h, rfl⟩

theorem left_eq {s : Scene} {ws : List Worker} (hactors : s.actors = ws.map .worker) :
    s.left = Draining.left s.pipeline ws := by
  rw [left, hactors, List.map_map]
  rfl

theorem Idle.draining {s : Scene} (h : s.Idle) : s.DrainingFrom s.pipeline := by
  have hcrew : ∀ as : List Actor, (∀ a ∈ as, a = .worker .looking ∨ a = .worker .waiting) →
      ∃ ws : List Worker, as = ws.map .worker ∧ ∀ w ∈ ws, w = .looking ∨ w = .waiting := by
    intro as
    induction as with
    | nil => intro _; exact ⟨[], rfl, nofun⟩
    | cons a as ih =>
      intro hall
      obtain ⟨ws, rfl, hws⟩ := ih fun b hb => hall b (List.mem_cons_of_mem _ hb)
      rcases hall a List.mem_cons_self with rfl | rfl
      · exact ⟨.looking :: ws, rfl, List.forall_mem_cons.2 ⟨.inl rfl, hws⟩⟩
      · exact ⟨.waiting :: ws, rfl, List.forall_mem_cons.2 ⟨.inr rfl, hws⟩⟩
  obtain ⟨ws, hactors, hws⟩ := hcrew s.actors h.resting
  have hinFlight : (ws.map Worker.inFlight).sum = 0 := by
    apply List.sum_eq_zero
    intro x hx
    obtain ⟨w, hw, rfl⟩ := List.mem_map.1 hx
    rcases hws w hw with rfl | rfl <;> rfl
  have staffed : ws ≠ [] := by
    rintro rfl
    exact h.staffed hactors
  refine ⟨ws, staffed, hactors, h.isOpen, rfl, h.distinct, h.budget, ?_, h.nodup, ?_, ?_, ?_,
    fun id hid => hid, ?_, fun _ _ => rfl, fun hcalm => hcalm⟩
  · -- keen
    intro w hw
    rcases hws w hw with rfl | rfl <;> exact trivial
  · -- seated
    intro r
    rw [h.seated, hactors, seat_map]
  · -- load
    rw [hinFlight]
    exact h.load
  · -- escorted
    intro id hid _ _ _
    exact .inl hid
  · -- own
    intro w hw id hid
    rcases hws w hw with rfl | rfl <;> cases hid

theorem drains_iff {s s' : Scene} {ws : List Worker} (hactors : s.actors = ws.map .worker) :
    s.Drains s' ↔ ∃ i result w w' p', ws[i]? = some w ∧
      w.step i ⟨false, .result result⟩ s.pipeline = some (w', p') ∧
      s' = ⟨p', (ws.set i w').map .worker⟩ := by
  constructor
  · rintro ⟨i, result, hstep⟩
    obtain ⟨a, a', p, ha, hs, rfl⟩ := step_act_iff.1 hstep
    rw [hactors, List.getElem?_map, Option.map_eq_some_iff] at ha
    obtain ⟨w, hw, rfl⟩ := ha
    obtain ⟨⟨w', q⟩, hs, he⟩ := Option.map_eq_some_iff.1 hs
    cases he
    exact ⟨i, result, w, w', p, hw, hs, by rw [hactors, List.map_set]⟩
  · rintro ⟨i, result, w, w', p', hw, hs, rfl⟩
    refine ⟨i, result, step_act_iff.2 ⟨.worker w, .worker w', p', ?_, ?_, ?_⟩⟩
    · rw [hactors, seat_map, hw]
    · simp only [Actor.step, hs, Option.map_some]
    · rw [hactors, List.map_set]

/-- A drain goes on with less labour left. -/
theorem DrainingFrom.step {origin : Pipeline} {s s' : Scene} (h : s.DrainingFrom origin)
    (hs : s.Drains s') : s'.DrainingFrom origin ∧ s'.left < s.left := by
  obtain ⟨ws, staffed, hactors, draining⟩ := h
  obtain ⟨i, result, w, w', p', hw, hstep, rfl⟩ := (drains_iff hactors).1 hs
  have hmem := List.mem_of_getElem? hw
  have unseated : w = .looking → i ∉ s.pipeline.queue.suspended := by
    rintro rfl hseat
    rw [draining.seated, hw] at hseat
    cases hseat
  have moves := Worker.moves_of_step hstep
  have toils := Worker.toils_of_moves moves (draining.keen w hmem) draining.isOpen unseated
  constructor
  · refine ⟨ws.set i w', ?_, rfl, draining.step hw toils⟩
    intro hnil
    exact staffed ((List.set_eq_nil_iff i w').1 hnil)
  · rw [left_eq hactors, left_eq rfl]
    exact draining.left_lt hw toils

theorem DrainingFrom.run {origin : Pipeline} {s s' : Scene} (h : s.DrainingFrom origin)
    (run : s.DrainsTo s') :
    s'.DrainingFrom origin := by
  induction run with
  | refl => exact h
  | tail _ hs ih => exact (ih.step hs).1

theorem DrainingFrom.offer_accepted {origin : Pipeline} {s : Scene} (h : s.DrainingFrom origin)
    {job : Job} (hmem : Actor.handling (.requeueing job) ∈ s.actors) :
    (s.queue.offer job.id).1 = .accepted := by
  obtain ⟨ws, -, hactors, draining⟩ := h
  rw [hactors] at hmem
  obtain ⟨w, hw, he⟩ := List.mem_map.1 hmem
  obtain rfl := Actor.worker.inj he
  have hroom : s.queue.buffer.length + 1 ≤ s.queue.capacity := draining.room hw
  rw [Queue.offer_of_room draining.isOpen hroom]

/-- **A drain comes to an end.** -/
theorem DrainingFrom.no_infinite_run {origin : Pipeline} {s : Scene} (h : s.DrainingFrom origin) :
    ¬ ∃ run : Nat → Scene, run 0 = s ∧ ∀ k, (run k).Drains (run (k + 1)) := by
  rintro ⟨run, rfl, hrun⟩
  -- With every move less is left, so there are no more moves than what is left at the start.
  have hleft : ∀ k, (run k).DrainingFrom origin ∧ (run k).left + k ≤ (run 0).left := by
    intro k
    induction k with
    | zero => exact ⟨h, Nat.le_refl _⟩
    | succ k ih =>
      obtain ⟨hdraining, hle⟩ := ih
      obtain ⟨hnext, hlt⟩ := hdraining.step (hrun k)
      exact ⟨hnext, by omega⟩
  have := (hleft ((run 0).left + 1)).2
  omega

theorem DrainingFrom.exists_drained {origin : Pipeline} {s : Scene} (h : s.DrainingFrom origin) :
    ∃ s', s.DrainsTo s' ∧ s'.Drained := by
  induction hn : s.left using Nat.strong_induction_on generalizing s with
  | _ n ih =>
    subst hn
    by_cases hd : s.Drained
    · exact ⟨s, .refl, hd⟩
    · simp only [Drained, not_forall, not_not] at hd
      obtain ⟨t, ht⟩ := hd
      obtain ⟨ht', hlt⟩ := h.step ht
      obtain ⟨u, hu, hdrained⟩ := ih t.left hlt ht' rfl
      exact ⟨u, .head ht hu, hdrained⟩

end Scene
end JobPipeline
