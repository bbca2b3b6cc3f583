import JobPipeline.Queue.Basic
import Mathlib

/-!
# The discipline of the queue

Whatever is done to a queue, by whoever and in whatever order, its history tells what it holds. The
ids that were accepted are those that were returned, followed by the buffer, and the queue is open
until the first close (`Desk.Disciplined`). So the answers to offers and receivers follow from what
was answered before (`Exchange.Right`), and no receiver that gives up takes an id with it.

A sender sees the queue through its permits: an accepted offer takes one, and a returned id gives
one back. They stay between zero and the capacity, and what is missing of the capacity is the number
of ids in the buffer (`History.permits`).
-/

namespace JobPipeline

namespace Queue

/-! ## What an operation does -/

/-- The queue as it is seen by its contents only. -/
def Alike (q q' : Queue) : Prop := q'.buffer = q.buffer ∧ q'.isOpen = q.isOpen

/-- What a receiver gets, and what is left. -/
theorem receive_cases (q : Queue) (r : ReceiverId) :
    (∃ id, (q.receive r).1 = .taken id ∧ q.buffer = id :: (q.receive r).2.buffer ∧
        (q.receive r).2.isOpen = q.isOpen) ∨
      ((q.receive r).1 = .waiting ∧ q.Alike (q.receive r).2) ∨
      ((q.receive r).1 = .ended ∧ q.buffer = [] ∧ q.isOpen = false ∧ q.Alike (q.receive r).2) := by
  unfold receive
  split
  · cases hb : q.buffer with
    | cons id rest => exact .inl ⟨id, rfl, rfl, rfl⟩
    | nil =>
      cases ho : q.isOpen with
      | true => exact .inr (.inl ⟨rfl, hb.symm, ho.symm⟩)
      | false => exact .inr (.inr ⟨rfl, rfl, rfl, hb.symm, ho.symm⟩)
  · split
    · exact .inr (.inl ⟨rfl, rfl, rfl⟩)
    · exact .inr (.inl ⟨rfl, rfl, rfl⟩)

@[simp] theorem capacity_receive (q : Queue) (r : ReceiverId) :
    (q.receive r).2.capacity = q.capacity := by
  unfold receive
  split
  · split
    · rfl
    · split <;> rfl
  · split <;> rfl

theorem offer_of_closed {q : Queue} (closed : q.isOpen = false) (id : JobId) :
    q.offer id = (.closed, q) := by
  simp [offer, closed]

theorem offer_of_room {q : Queue} (isOpen : q.isOpen = true)
    (room : q.buffer.length < q.capacity) (id : JobId) :
    q.offer id = (.accepted, { q with buffer := q.buffer ++ [id] }) := by
  simp [offer, isOpen, room]

theorem offer_of_full {q : Queue} (isOpen : q.isOpen = true)
    (full : ¬ q.buffer.length < q.capacity) (id : JobId) :
    q.offer id = (.full, q) := by
  simp [offer, isOpen, full]

/-- An offer puts the id behind the others, or changes nothing. -/
theorem offer_cases (q : Queue) (id : JobId) :
    (q.offer id).2 = { q with buffer := q.buffer ++ [id] } ∨ (q.offer id).2 = q := by
  unfold offer
  split
  · split
    · exact .inl rfl
    · exact .inr rfl
  · exact .inr rfl

theorem isOpen_offer (q : Queue) (id : JobId) : (q.offer id).2.isOpen = q.isOpen := by
  rcases q.offer_cases id with h | h <;> rw [h]

theorem capacity_offer (q : Queue) (id : JobId) : (q.offer id).2.capacity = q.capacity := by
  rcases q.offer_cases id with h | h <;> rw [h]

theorem suspended_offer (q : Queue) (id : JobId) : (q.offer id).2.suspended = q.suspended := by
  rcases q.offer_cases id with h | h <;> rw [h]

theorem length_offer_le (q : Queue) (id : JobId) :
    (q.offer id).2.buffer.length ≤ q.buffer.length + 1 := by
  rcases q.offer_cases id with h | h <;> simp [h]

theorem mem_of_mem_offer {q : Queue} {id other : JobId} (h : other ∈ (q.offer id).2.buffer) :
    other ∈ q.buffer ∨ other = id := by
  rcases q.offer_cases id with hq | hq <;> rw [hq] at h
  · simpa using h
  · exact .inl h

/-! ## The line of those that wait -/

theorem isOpen_receive (q : Queue) (r : ReceiverId) : (q.receive r).2.isOpen = q.isOpen := by
  rcases q.receive_cases r with ⟨_, -, -, h⟩ | ⟨-, -, h⟩ | ⟨-, -, -, -, h⟩ <;> exact h

/-- A receiver has a seat in the line if it is left waiting, and the others keep theirs. -/
theorem receive_seats {q : Queue} (nodup : q.suspended.Nodup) (r : ReceiverId) :
    (q.receive r).2.suspended.Nodup ∧
      (r ∈ (q.receive r).2.suspended ↔ (q.receive r).1 = .waiting) ∧
      ∀ other, other ≠ r → (other ∈ (q.receive r).2.suspended ↔ other ∈ q.suspended) := by
  obtain ⟨capacity, buffer, isOpen, suspended⟩ := q
  cases suspended with
  | nil => cases buffer <;> cases isOpen <;> simp [receive]
  | cons first behind =>
    rw [List.nodup_cons] at nodup
    by_cases hr : first = r
    · subst hr
      cases buffer <;> cases isOpen <;> simp_all [receive]
    · by_cases hmem : r ∈ behind
      · simp_all [receive]
      · have hlast : (receive ⟨capacity, buffer, isOpen, first :: behind⟩ r)
            = (.waiting, ⟨capacity, buffer, isOpen, first :: behind ++ [r]⟩) := by
          simp [receive, hr, hmem, Ne.symm hr]
        rw [hlast]
        refine ⟨?_, by simp, fun other hne => by simp [hne]⟩
        exact List.nodup_append.2 ⟨List.nodup_cons.2 nodup, List.nodup_singleton r, by
          have (a : ReceiverId) (ha : a ∈ behind) : a ≠ r := ne_of_mem_of_not_mem ha hmem
          simpa [hr] using this⟩

theorem le_foldl_max (rs : List Nat) (start : Nat) :
    start ≤ rs.foldl max start ∧ ∀ r ∈ rs, r ≤ rs.foldl max start := by
  induction rs generalizing start with
  | nil => simp
  | cons first rest ih =>
    obtain ⟨hstart, hrest⟩ := ih (max start first)
    refine ⟨by simp only [List.foldl_cons]; omega, fun r hr => ?_⟩
    rcases List.mem_cons.1 hr with rfl | hr
    · simp only [List.foldl_cons]; omega
    · exact hrest r hr

/-- Somebody who looks once leaves the line as it is. -/
theorem suspended_poll (q : Queue) : q.poll.2.suspended = q.suspended := by
  -- The name it goes by is above all names in the line.
  have fresh : q.suspended.foldl max 0 + 1 ∉ q.suspended := by
    intro hmem
    exact Nat.not_succ_le_self _ ((le_foldl_max q.suspended 0).2 _ hmem)
  simp only [poll]
  generalize q.suspended.foldl max 0 + 1 = r at fresh
  have others : (q.suspended ++ [r]).filter (· ≠ r) = q.suspended := by
    simpa [List.filter_append] using fun a ha => ne_of_mem_of_not_mem ha fresh
  obtain ⟨capacity, buffer, isOpen, suspended⟩ := q
  cases suspended with
  | nil => cases buffer <;> cases isOpen <;> simp [receive, abandon]
  | cons first behind =>
    have hfirst : first ≠ r := fun h => fresh (h ▸ List.mem_cons_self)
    simp only [receive, abandon]
    rw [if_neg (by simpa using hfirst), if_neg fresh]
    exact others

theorem isOpen_poll (q : Queue) : q.poll.2.isOpen = q.isOpen := q.isOpen_receive _

/-! ## Histories -/

/-- What somebody may do to a queue. A receiver asks until it is served, or leaves. -/
inductive Call
  | offer (id : JobId)
  | receive (r : ReceiverId)
  | abandon (r : ReceiverId)
  | close
deriving DecidableEq, Repr

/-- A call with its answer. -/
inductive Exchange
  | offered (id : JobId) (answer : Offer)
  | received (r : ReceiverId) (receipt : Receipt)
  | abandoned (r : ReceiverId)
  | closed
deriving DecidableEq, Repr

/-- What has been said at a queue so far. -/
abbrev History := List Exchange

namespace Exchange

def accepted? : Exchange → Option JobId
  | .offered id .accepted => some id
  | _ => none

def returned? : Exchange → Option JobId
  | .received _ (.taken id) => some id
  | _ => none

end Exchange

namespace History

/-- The ids that the queue took, in order. -/
def accepted (h : History) : List JobId := h.filterMap Exchange.accepted?

/-- The ids that receivers got, in order. -/
def returned (h : History) : List JobId := h.filterMap Exchange.returned?

@[simp] theorem accepted_concat (h : History) (x : Exchange) :
    accepted (h ++ [x]) = h.accepted ++ x.accepted?.toList := by
  cases hx : x.accepted? <;> simp [accepted, hx]

@[simp] theorem returned_concat (h : History) (x : Exchange) :
    returned (h ++ [x]) = h.returned ++ x.returned?.toList := by
  cases hx : x.returned? <;> simp [returned, hx]

/-- The ids that have been accepted and not returned. -/
def buffered (h : History) : Nat := h.accepted.length - h.returned.length

/-- The permits that a sender finds free. -/
def permits (capacity : Nat) (h : History) : Int :=
  capacity - h.accepted.length + h.returned.length

end History

/-- The answer is the one that the history before it asks for. A receiver may always be told to
wait, for others may be in front of it. -/
def Exchange.Right (capacity : Nat) (before : History) : Exchange → Prop
  | .offered _ answer => answer =
      if .closed ∈ before then .closed
      else if before.buffered < capacity then .accepted
      else .full
  | .received _ (.taken id) => before.returned ++ [id] <+: before.accepted
  | .received _ .waiting => True
  | .received _ .ended => .closed ∈ before ∧ before.returned = before.accepted
  | .abandoned _ => True
  | .closed => True

/-- Every answer is the one that the history before it asks for. -/
def History.Right (capacity : Nat) (h : History) : Prop :=
  ∀ before x after, h = before ++ x :: after → x.Right capacity before

/-- A queue with its history. -/
structure Desk where
  history : History
  queue : Queue

namespace Desk

/-- Answers a call. -/
def serve (d : Desk) : Call → Desk
  | .offer id => ⟨d.history ++ [.offered id (d.queue.offer id).1], (d.queue.offer id).2⟩
  | .receive r => ⟨d.history ++ [.received r (d.queue.receive r).1], (d.queue.receive r).2⟩
  | .abandon r => ⟨d.history ++ [.abandoned r], d.queue.abandon r⟩
  | .close => ⟨d.history ++ [.closed], d.queue.close⟩

/-- A queue that is asked one thing after the other. -/
def after (q : Queue) (calls : List Call) : Desk := calls.foldl serve ⟨[], q⟩

/-- What every call keeps holds after any calls. -/
theorem after_keeps {P : Desk → Prop} (keeps : ∀ d call, P d → P (d.serve call)) {q : Queue}
    (start : P ⟨[], q⟩) (calls : List Call) : P (after q calls) := by
  unfold after
  generalize (⟨[], q⟩ : Desk) = d at start
  induction calls generalizing d with
  | nil => exact start
  | cons call calls ih => exact ih _ (keeps d call start)

/-- What the history tells about the queue.

  * `right`   — every answer follows from what was said before.
  * `fifo`    — the ids that were accepted are those that were returned and, behind them, the
    buffer.
  * `bounded` — the buffer is not overfull.
  * `isOpen`  — nobody has closed a queue that is open. -/
structure Disciplined (capacity : Nat) (d : Desk) : Prop where
  capacity_eq : d.queue.capacity = capacity
  right : d.history.Right capacity
  fifo : d.history.accepted = d.history.returned ++ d.queue.buffer
  bounded : d.queue.buffer.length ≤ capacity
  isOpen : d.queue.isOpen = true ↔ .closed ∉ d.history

end Desk

theorem History.Right.concat {capacity : Nat} {h : History} (right : h.Right capacity)
    {x : Exchange} (last : x.Right capacity h) : History.Right capacity (h ++ [x]) := by
  intro before y after heq
  rcases List.eq_nil_or_concat after with rfl | ⟨init, z, rfl⟩
  · obtain ⟨rfl, hxy⟩ := List.append_inj' heq rfl
    obtain rfl : x = y := by simpa using hxy
    exact last
  · rw [List.concat_eq_append, ← List.cons_append, ← List.append_assoc] at heq
    exact right before y init (List.append_inj' heq rfl).1

namespace Desk.Disciplined

variable {capacity : Nat} {d : Desk}

theorem of_new (capacity : Nat) : Disciplined capacity ⟨[], ofCapacity capacity⟩ where
  capacity_eq := rfl
  right before x after h := by simp at h
  fifo := rfl
  bounded := Nat.zero_le _
  isOpen := by simp [ofCapacity]

/-- The history tells how many ids are in the buffer. -/
theorem buffered_eq (h : d.Disciplined capacity) :
    d.history.buffered = d.queue.buffer.length := by
  have := congrArg List.length h.fifo
  rw [List.length_append] at this
  unfold History.buffered
  omega

/-- An exchange that moves no id and closes nothing. -/
theorem idle (h : d.Disciplined capacity) {x : Exchange} {q : Queue}
    (right : x.Right capacity d.history) (takes : x.accepted? = none) (gives : x.returned? = none)
    (closes : x ≠ .closed) (same : q.capacity = d.queue.capacity) (alike : d.queue.Alike q) :
    Disciplined capacity ⟨d.history ++ [x], q⟩ where
  capacity_eq := same.trans h.capacity_eq
  right := h.right.concat right
  fifo := by
    rw [History.accepted_concat, History.returned_concat, takes, gives, alike.1]
    simpa using h.fifo
  bounded := by rw [alike.1]; exact h.bounded
  isOpen := by
    rw [alike.2, h.isOpen, List.mem_append, List.mem_singleton, not_or]
    exact (and_iff_left (Ne.symm closes)).symm

theorem offer (h : d.Disciplined capacity) (id : JobId) :
    (d.serve (.offer id)).Disciplined capacity := by
  simp only [serve]
  by_cases isOpen : d.queue.isOpen = true
  · have unclosed := h.isOpen.1 isOpen
    by_cases room : d.queue.buffer.length < d.queue.capacity
    · rw [offer_of_room isOpen room]
      rw [h.capacity_eq] at room
      refine ⟨h.capacity_eq, h.right.concat ?_, ?_, ?_, ?_⟩
      · simp [Exchange.Right, unclosed, h.buffered_eq, room]
      · rw [History.accepted_concat, History.returned_concat]
        simp [Exchange.accepted?, Exchange.returned?, h.fifo]
      · rw [List.length_append, List.length_singleton]
        exact room
      · simp [isOpen, unclosed]
    · rw [offer_of_full isOpen room]
      rw [h.capacity_eq] at room
      refine h.idle ?_ rfl rfl nofun rfl ⟨rfl, rfl⟩
      simp [Exchange.Right, unclosed, h.buffered_eq, room]
  · have closed : d.queue.isOpen = false := by simpa using isOpen
    rw [offer_of_closed closed]
    refine h.idle ?_ rfl rfl nofun rfl ⟨rfl, rfl⟩
    simp [Exchange.Right, Decidable.not_not.1 fun unclosed => isOpen (h.isOpen.2 unclosed)]

theorem receive (h : d.Disciplined capacity) (r : ReceiverId) :
    (d.serve (.receive r)).Disciplined capacity := by
  simp only [serve]
  have same := capacity_receive d.queue r
  rcases d.queue.receive_cases r with ⟨id, hr, hb, ho⟩ | ⟨hr, alike⟩ | ⟨hr, hb, closed, alike⟩
  · -- The buffer loses its first id, and what was returned gains it.
    rw [hr]
    have hfifo : d.history.accepted =
        (d.history.returned ++ [id]) ++ (d.queue.receive r).2.buffer := by
      rw [h.fifo, hb, List.append_assoc, List.singleton_append]
    refine ⟨same.trans h.capacity_eq, h.right.concat ?_, ?_, ?_, ?_⟩
    · exact ⟨_, hfifo.symm⟩
    · rw [History.accepted_concat, History.returned_concat]
      simpa [Exchange.accepted?, Exchange.returned?] using hfifo
    · have := h.bounded
      rw [hb, List.length_cons] at this
      exact Nat.le_of_succ_le this
    · simp [ho, h.isOpen]
  · rw [hr]
    exact h.idle trivial rfl rfl nofun same alike
  · rw [hr]
    refine h.idle ⟨?_, ?_⟩ rfl rfl nofun same alike
    · by_contra unclosed
      rw [h.isOpen.2 unclosed] at closed
      cases closed
    · rw [h.fifo, hb, List.append_nil]

/-- Every call keeps the discipline. -/
theorem serve (h : d.Disciplined capacity) (call : Call) :
    (d.serve call).Disciplined capacity := by
  cases call with
  | offer id => exact h.offer id
  | receive r => exact h.receive r
  | abandon r => exact h.idle trivial rfl rfl nofun rfl ⟨rfl, rfl⟩
  | close =>
    refine ⟨h.capacity_eq, h.right.concat trivial, ?_, h.bounded, ?_⟩
    · simp only [Desk.serve, History.accepted_concat, History.returned_concat]
      simpa [Exchange.accepted?, Exchange.returned?, close] using h.fifo
    · simp [Desk.serve, close]

theorem after {q : Queue} (h : Disciplined capacity ⟨[], q⟩) (calls : List Call) :
    (Desk.after q calls).Disciplined capacity :=
  Desk.after_keeps (fun _ call h => h.serve call) h calls

/-! ## What follows -/

/-- The free permits are the places in the buffer that are not taken. -/
theorem permits_eq (h : d.Disciplined capacity) :
    d.history.permits capacity = capacity - d.queue.buffer.length := by
  have := congrArg List.length h.fifo
  rw [List.length_append] at this
  unfold History.permits
  omega

theorem closed (h : d.Disciplined capacity) (shut : .closed ∈ d.history) :
    d.queue.isOpen = false := by
  by_contra hopen
  exact h.isOpen.1 (by simpa using hopen) shut

end Desk.Disciplined

theorem new?_eq_ok {capacity : Nat} (pos : 1 ≤ capacity) (small : capacity ≤ maxCapacity) :
    new? capacity = .ok (ofCapacity capacity) := by
  rw [new?, if_neg (by omega), if_neg (by omega)]

/-- **Queue discipline.** A queue of any capacity that a queue can have, after any calls by any
producers and consumers: every answer is the one that the history before it asks for; what was
returned is, in order, the beginning of what was accepted, and the rest is in the buffer, which is
not overfull; a sender finds no more permits free than there are places, and an observer of the open
queue sees as many ids as permits are missing. Once the queue is closed an offer changes nothing,
and a receiver that waits or leaves takes nothing with it. -/
theorem discipline {capacity : Nat} (pos : 1 ≤ capacity) (small : capacity ≤ maxCapacity) :
    ∃ q, new? capacity = .ok q ∧ ∀ calls, ∃ h q', Desk.after q calls = ⟨h, q'⟩ ∧
      h.Right capacity ∧
      h.accepted = h.returned ++ q'.buffer ∧
      q'.buffer.length ≤ capacity ∧
      (q'.isOpen = true ↔ .closed ∉ h) ∧
      0 ≤ h.permits capacity ∧ h.permits capacity ≤ capacity ∧
      (q'.isOpen = true → (q'.length : Int) = capacity - h.permits capacity) ∧
      (.closed ∈ h → ∀ id, q'.offer id = (.closed, q')) ∧
      ∀ r, q'.Alike (q'.abandon r) ∧
        ((q'.receive r).1 = .waiting → q'.Alike ((q'.receive r).2.abandon r)) := by
  refine ⟨ofCapacity capacity, new?_eq_ok pos small, fun calls => ?_⟩
  have disciplined := (Desk.Disciplined.of_new capacity).after calls
  rcases hdesk : Desk.after (ofCapacity capacity) calls with ⟨h, q'⟩
  rw [hdesk] at disciplined
  have bounded : q'.buffer.length ≤ capacity := disciplined.bounded
  have permits : h.permits capacity = capacity - q'.buffer.length := disciplined.permits_eq
  refine ⟨h, q', rfl, disciplined.right, disciplined.fifo, bounded, disciplined.isOpen, ?_, ?_, ?_,
    ?_, ?_⟩
  · omega
  · omega
  · intro isOpen
    rw [length, if_pos isOpen]
    omega
  · intro shut id
    exact offer_of_closed (disciplined.closed shut) id
  · intro r
    refine ⟨⟨rfl, rfl⟩, fun waits => ?_⟩
    rcases receive_cases q' r with ⟨id, hr, -⟩ | ⟨-, alike⟩ | ⟨hr, -⟩
    · rw [hr] at waits; cases waits
    · exact alike
    · rw [hr] at waits; cases waits

/-- Two receivers at a queue with one place. The first leaves before it is served, one of the ids
comes twice, and the second finds the end only when it has got what was accepted. -/
def twoReceivers : List Call :=
  [.receive 1, .receive 2, .abandon 1, .offer ⟨"a"⟩, .offer ⟨"a"⟩, .receive 2, .offer ⟨"a"⟩, .close,
    .offer ⟨"b"⟩, .receive 2, .receive 2]

theorem discipline_of_twoReceivers :
    1 ≤ 1 ∧ 1 ≤ maxCapacity ∧ (Desk.after (ofCapacity 1) twoReceivers).history.Right 1 ∧
      (Desk.after (ofCapacity 1) twoReceivers).history.returned = [⟨"a"⟩, ⟨"a"⟩] := by
  obtain ⟨q, hq, h⟩ := @discipline 1 (by decide) (by decide)
  cases hq
  obtain ⟨history, q', hdesk, right, -⟩ := h twoReceivers
  refine ⟨by decide, by decide, ?_, rfl⟩
  rw [hdesk]
  exact right

end Queue
end JobPipeline
