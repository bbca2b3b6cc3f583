import JobPipeline.Proofs.Drain.Work
import JobPipeline.Proofs.Queue.Discipline

/-!
# A worker in a drain

`Worker.Toils` lists what a worker does while the queue stays open and nothing stops it: it takes
ids, waits, works (`Handling.Works`), and offers ids again. Each move comes with what it does to the
parts that a drain is measured by: the labour left, the load of the queue, the ids under way, and
the records.
-/

namespace JobPipeline

/-- The labour left in the shared parts. -/
def Pipeline.labour (p : Pipeline) : Nat :=
  9 * p.queue.buffer.length + 10 * p.store.total Job.leeway

namespace Worker

def toGo : Worker → Nat
  | .looking => 1
  | .handling h => h.toGo
  | _ => 0

def inFlight : Worker → Nat
  | .handling h => h.inFlight
  | _ => 0

def escorted? : Worker → Option JobId
  | .handling h => h.escorted?
  | _ => none

def id? : Worker → Option JobId
  | .handling h => h.id?
  | _ => none

/-- Not on the way out. -/
def Keen : Worker → Prop
  | .stopped => False
  | .died => False
  | .handling h => h ≠ .done .aborted
  | _ => True

/-- What the worker `r` does in a drain, and what becomes of the shared parts. -/
inductive Toils (r : ReceiverId) (p : Pipeline) : Worker → Worker → Pipeline → Prop
  /-- Takes an id where nobody waits for one. -/
  | take {id : JobId} {rest : List JobId} (nobody : p.queue.suspended = [])
      (buffered : p.queue.buffer = id :: rest) :
      Toils r p .looking (.handling (.claiming id))
        { p with queue := { p.queue with buffer := rest } }
  /-- Is handed the id it has waited for. -/
  | serve {id : JobId} {rest : List JobId} {behind : List ReceiverId}
      (first : p.queue.suspended = r :: behind) (buffered : p.queue.buffer = id :: rest) :
      Toils r p .waiting (.handling (.claiming id))
        { p with queue := { p.queue with buffer := rest, suspended := behind } }
  /-- Waits behind the others. -/
  | wait : Toils r p .looking .waiting
      { p with queue := { p.queue with suspended := p.queue.suspended ++ [r] } }
  | work {h h' : Handling} {s : Store} {l : Ledger} (works : h.Works p.store h' s) :
      Toils r p (.handling h) (.handling h') ⟨s, p.queue, l⟩
  /-- Offers the id again. -/
  | requeue (job : Job) : Toils r p (.handling (.requeueing job))
      (.handling (.done (.retrying (p.queue.offer job.id).1)))
      { p with queue := (p.queue.offer job.id).2 }
  | next (outcome : Outcome) : Toils r p (.handling (.done outcome)) .looking p

/-- What a keen worker does that nothing stops and whose workload comes to a result. -/
theorem toils_of_moves {r : ReceiverId} {result : WorkResult} {w w' : Worker} {p p' : Pipeline}
    (moves : w.Moves r ⟨false, .result result⟩ p w' p') (keen : w.Keen)
    (isOpen : p.queue.isOpen = true) (unseated : w = .looking → r ∉ p.queue.suspended) :
    w.Toils r p w' p' := by
  cases moves with
  | quit stops => cases stops
  | desert stops => cases stops
  | look =>
    have hfree := unseated rfl
    by_cases hnobody : p.queue.suspended = []
    · cases hb : p.queue.buffer with
      | nil =>
        have := Toils.wait (r := r) (p := p)
        simpa only [look, Queue.receive, hnobody, true_or, if_true, hb, isOpen, List.drop_nil,
          List.nil_append, answered] using this
      | cons id rest =>
        have := Toils.take (r := r) hnobody hb
        simpa only [look, Queue.receive, hnobody, true_or, if_true, hb, List.drop_nil,
          answered] using this
    · have hhead : ¬ p.queue.suspended.head? = some r := fun h => hfree (List.mem_of_head? h)
      simp only [look, Queue.receive, hnobody, hhead, or_self, if_false, hfree, answered]
      exact .wait
  | serve _ served =>
    simp only [Queue.canServe, isOpen, Bool.not_true, Bool.or_false, Bool.and_eq_true,
      decide_eq_true_eq, Bool.not_eq_true', List.isEmpty_eq_false_iff] at served
    obtain ⟨behind, hfirst⟩ := List.head?_eq_some_iff.1 served.1
    obtain ⟨id, rest, hb⟩ := List.exists_cons_of_ne_nil served.2
    have := Toils.serve hfirst hb
    simpa only [look, Queue.receive, hfirst, List.head?_cons, or_true, if_true, hb,
      List.drop_one, List.tail_cons, answered] using this
  | handle proceeds =>
    obtain ⟨store, queue, ledger⟩ := p'
    rcases Handling.works_of_proceeds proceeds with ⟨works, hq⟩ | ⟨job, rfl, rfl, hp⟩
    · cases hq; exact .work works
    · rw [hp]; exact .requeue job
  | finish job ending => cases ending; exact .work (.finish job result)
  | die job ending => cases ending
  | leave => exact absurd rfl keen
  | next => exact .next _

namespace Toils

variable {r : ReceiverId} {p p' : Pipeline} {w w' : Worker}

theorem keen (toils : w.Toils r p w' p') : w'.Keen := by
  cases toils with
  | take => exact nofun
  | serve => exact nofun
  | wait => exact trivial
  | work works =>
    intro h
    cases works with
    | report _ _ _ result => cases result <;> cases h
    | _ => cases h
  | requeue job => exact nofun
  | next outcome => exact trivial

/-- Nobody opens, closes or resizes the queue. -/
theorem frame (toils : w.Toils r p w' p') :
    p'.queue.isOpen = p.queue.isOpen ∧ p'.queue.capacity = p.queue.capacity := by
  cases toils with
  | requeue job => exact ⟨Queue.isOpen_offer _ _, Queue.capacity_offer _ _⟩
  | _ => exact ⟨rfl, rfl⟩

/-- **The load does not grow.** -/
theorem load_le (toils : w.Toils r p w' p') :
    p'.queue.buffer.length + w'.inFlight ≤ p.queue.buffer.length + w.inFlight := by
  cases toils with
  | take _ buffered => simp [buffered, inFlight, Handling.inFlight]
  | serve _ buffered => simp [buffered, inFlight, Handling.inFlight]
  | wait => exact Nat.le_refl _
  | work works => exact Nat.add_le_add_left works.inFlight_le _
  | requeue job => exact p.queue.length_offer_le job.id
  | next outcome => exact Nat.le_refl _

/-- **Every move leaves less to do.** -/
theorem descends (toils : w.Toils r p w' p') (distinct : p.store.Distinct)
    (budget : p.store.All Job.Budgeted) :
    p'.labour + w'.toGo < p.labour + w.toGo := by
  cases toils with
  | take _ buffered =>
    simp only [Pipeline.labour, buffered, List.length_cons, toGo, Handling.toGo]
    omega
  | serve _ buffered =>
    simp only [Pipeline.labour, buffered, List.length_cons, toGo, Handling.toGo]
    omega
  | wait => simp only [Pipeline.labour, toGo]; omega
  | work works =>
    have := works.descends distinct budget
    simp only [Pipeline.labour, toGo]; omega
  | requeue job =>
    have hlength := p.queue.length_offer_le job.id
    simp only [Pipeline.labour, toGo, Handling.toGo]; omega
  | next outcome => simp only [toGo, Handling.toGo]; omega

/-- **Who is pending is buffered or escorted, or has been neither before.** -/
theorem pending (toils : w.Toils r p w' p') (isOpen : p.queue.isOpen = true)
    (room : p.queue.buffer.length + w.inFlight ≤ p.queue.capacity) {id : JobId} {job : Job}
    (hget : p'.store.get? id = some job) (hp : job.status = .pending) :
    w'.escorted? = some id ∨ id ∈ p'.queue.buffer ∨
      p.store.get? id = some job ∧ w.escorted? ≠ some id ∧ id ∉ p.queue.buffer := by
  have keeps (same : p'.store.get? id = p.store.get? id) (free : w.escorted? ≠ some id)
      (grows : id ∈ p.queue.buffer → id ∈ p'.queue.buffer) :
      w'.escorted? = some id ∨ id ∈ p'.queue.buffer ∨
        p.store.get? id = some job ∧ w.escorted? ≠ some id ∧ id ∉ p.queue.buffer := by
    by_cases hb : id ∈ p'.queue.buffer
    · exact .inr (.inl hb)
    · refine .inr (.inr ⟨?_, free, ?_⟩)
      · rw [← same, hget]
      · intro h; exact hb (grows h)
  cases toils with
  | @take taken rest _ buffered =>
    by_cases hid : taken = id
    · exact .inl (congrArg some hid)
    · refine keeps rfl nofun fun h => ?_
      rw [buffered] at h
      exact (List.mem_cons.1 h).resolve_left (Ne.symm hid)
  | @serve taken rest _ _ buffered =>
    by_cases hid : taken = id
    · exact .inl (congrArg some hid)
    · refine keeps rfl nofun fun h => ?_
      rw [buffered] at h
      exact (List.mem_cons.1 h).resolve_left (Ne.symm hid)
  | wait => exact keeps rfl nofun fun h => h
  | work works =>
    rcases works.pending hget hp with h | ⟨hsame, free⟩
    · exact .inl h
    · exact keeps (hget.trans hsame.symm) free fun h => h
  | requeue mine =>
    have hoffer := Queue.offer_of_room isOpen room mine.id
    by_cases hid : mine.id = id
    · subst hid
      refine .inr (.inl ?_)
      show mine.id ∈ (p.queue.offer mine.id).2.buffer
      rw [hoffer]
      exact List.mem_append_right _ List.mem_cons_self
    · have free : some mine.id ≠ some id := by intro h; exact hid (Option.some.inj h)
      refine keeps rfl free ?_
      intro h
      simp [hoffer, h]
  | next outcome => exact keeps rfl nofun fun h => h

/-- Workers handle the ids that they find in the queue, and touch no other records. -/
theorem within (toils : w.Toils r p w' p') {among : JobId → Prop}
    (buffered : ∀ id ∈ p.queue.buffer, among id) (mine : ∀ id, w.id? = some id → among id) :
    (∀ id ∈ p'.queue.buffer, among id) ∧ (∀ id, w'.id? = some id → among id) ∧
      ∀ id, ¬ among id → p'.store.get? id = p.store.get? id := by
  cases toils with
  | @take taken rest _ hb =>
    rw [hb, List.forall_mem_cons] at buffered
    refine ⟨buffered.2, ?_, fun _ _ => rfl⟩
    intro id h
    cases h
    exact buffered.1
  | @serve taken rest _ _ hb =>
    rw [hb, List.forall_mem_cons] at buffered
    refine ⟨buffered.2, ?_, fun _ _ => rfl⟩
    intro id h
    cases h
    exact buffered.1
  | wait => exact ⟨buffered, nofun, fun _ _ => rfl⟩
  | work works =>
    obtain ⟨hid, hstore⟩ := works.own
    refine ⟨buffered, ?_, ?_⟩
    · intro id h
      rcases hid with hid | hid
      · exact absurd (hid.symm.trans h) nofun
      · exact mine id (hid.symm.trans h)
    · intro id h
      apply hstore
      intro h'
      exact h (mine id h')
  | requeue job =>
    refine ⟨?_, nofun, fun _ _ => rfl⟩
    intro id h
    rcases Queue.mem_of_mem_offer h with h | rfl
    · exact buffered id h
    · exact mine job.id rfl
  | next outcome => exact ⟨buffered, by simp [id?], fun _ _ => rfl⟩

theorem records {P : Job → Prop} (toils : w.Toils r p w' p') (all : p.store.All P)
    (started : ∀ job, P job → P job.started)
    (reported : ∀ job result, P job → P (job.reported result)) : p'.store.All P := by
  cases toils with
  | work works => exact works.records all started reported
  | _ => exact all

theorem distinct (toils : w.Toils r p w' p') (distinct : p.store.Distinct) : p'.store.Distinct := by
  cases toils with
  | work works => exact works.distinct distinct
  | _ => exact distinct

/-- The worker's seat in the line at the queue is its own. -/
theorem seated (toils : w.Toils r p w' p') (nodup : p.queue.suspended.Nodup)
    (mine : r ∈ p.queue.suspended ↔ w = .waiting) :
    p'.queue.suspended.Nodup ∧ (r ∈ p'.queue.suspended ↔ w' = .waiting) ∧
      ∀ q, q ≠ r → (q ∈ p'.queue.suspended ↔ q ∈ p.queue.suspended) := by
  have stays (same : p'.queue.suspended = p.queue.suspended) (hw : w ≠ .waiting)
      (hw' : w' ≠ .waiting) :
      p'.queue.suspended.Nodup ∧ (r ∈ p'.queue.suspended ↔ w' = .waiting) ∧
        ∀ q, q ≠ r → (q ∈ p'.queue.suspended ↔ q ∈ p.queue.suspended) := by
    rw [same]
    refine ⟨nodup, ⟨?_, ?_⟩, fun _ _ => Iff.rfl⟩
    · intro h; exact absurd (mine.1 h) hw
    · intro h; exact absurd h hw'
  cases toils with
  | take => exact stays rfl nofun nofun
  | serve first =>
    rw [first, List.nodup_cons] at nodup
    refine ⟨nodup.2, ⟨?_, nofun⟩, ?_⟩
    · intro h; exact absurd h nodup.1
    · intro q hq
      rw [first, List.mem_cons, or_iff_right hq]
  | wait =>
    have hfree : r ∉ p.queue.suspended := fun h => nomatch mine.1 h
    refine ⟨?_, ⟨fun _ => rfl, fun _ => ?_⟩, ?_⟩
    · refine List.nodup_append.2 ⟨nodup, List.nodup_singleton r, ?_⟩
      intro a ha b hb hab
      rw [hab, List.mem_singleton.1 hb] at ha
      exact hfree ha
    · exact List.mem_append_right _ List.mem_cons_self
    · intro q hq; simp [hq]
  | work => exact stays rfl nofun nofun
  | requeue job =>
    exact stays (p.queue.suspended_offer job.id) nofun nofun
  | next => exact stays rfl (by simp) (by simp)

end Toils

theorem exists_step_handling {h : Handling} (undone : ∀ outcome, h ≠ .done outcome)
    (idle : ∀ job, h ≠ .working job) (r : ReceiverId) (p : Pipeline) :
    ∃ w' p', (handling h).step r ⟨false, .result .success⟩ p = some (w', p') := by
  obtain ⟨⟨h', p'⟩, hs⟩ := Option.isSome_iff_exists.1 (Handling.isSome_step undone (.inr idle) p)
  exact ⟨_, _, step_handling hs⟩

/-- A keen worker waits for nothing but an id. -/
theorem Keen.can_step {w : Worker} (keen : w.Keen) (free : w ≠ .waiting) (r : ReceiverId)
    (p : Pipeline) :
    ∃ w' p', w.step r ⟨false, .result .success⟩ p = some (w', p') := by
  cases w with
  | looking => exact ⟨_, _, rfl⟩
  | waiting => exact absurd rfl free
  | stopped => exact keen.elim
  | died => exact keen.elim
  | handling h =>
    cases h with
    | working job => exact ⟨_, _, rfl⟩
    | done outcome => exact ⟨_, _, rfl⟩
    | _ => refine exists_step_handling ?_ ?_ r p <;> exact nofun

/-- Nor does the first in line wait while there is an id. -/
theorem can_serve {r : ReceiverId} {behind : List ReceiverId} {p : Pipeline}
    (first : p.queue.suspended = r :: behind) (buffered : p.queue.buffer ≠ []) :
    ∃ w' p', Worker.waiting.step r ⟨false, .result .success⟩ p = some (w', p') := by
  have hserve : p.queue.canServe r = true := by simp [Queue.canServe, first, buffered]
  exact ⟨_, _, by simp only [step, Bool.false_eq_true, if_false, hserve, if_true]; rfl⟩

end Worker
end JobPipeline
