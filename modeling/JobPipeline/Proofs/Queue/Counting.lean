import JobPipeline.Proofs.Queue.Discipline

/-!
# What an observer sees

The number of ids in a queue is what was accepted less what was returned. While the queue is open an
observer sees just that, whoever waits. Once it is closed the observer has to look at the receiving
side. A receiver that waits there keeps it to itself until it asks again, and meanwhile the observer
takes the queue for empty (`length_of_history`).

Who waits is told by the history (`History.Waits`), and these are the receivers in the line
(`Desk.Lined`).
-/

namespace JobPipeline.Queue

/-! ## Who waits -/

/-- The receiver that was answered or left. -/
def Exchange.about? : Exchange → Option ReceiverId
  | .received r _ => some r
  | .abandoned r => some r
  | _ => none

/-- The receiver was told to wait, and has neither asked again nor left since. -/
def History.Waits (h : History) (r : ReceiverId) : Prop :=
  (h.filter fun x => x.about? = some r).getLast? = some (.received r .waiting)

namespace History

variable {h : History} {x : Exchange} {r : ReceiverId}

theorem waits_concat_of_about (about : x.about? = some r) :
    (Waits (h ++ [x]) r) ↔ x = .received r .waiting := by
  have last : [x].filter (fun x => x.about? = some r) = [x] := by simp [about]
  rw [Waits, List.filter_append, last, List.getLast?_concat, Option.some.injEq]

theorem waits_concat_of_other (other : x.about? ≠ some r) :
    (Waits (h ++ [x]) r) ↔ h.Waits r := by
  have skipped : [x].filter (fun x => x.about? = some r) = [] := by simp [other]
  rw [Waits, List.filter_append, skipped, List.append_nil, Waits]

end History

/-- The line of a queue, by its history: those that wait, each once. -/
structure Desk.Lined (d : Desk) : Prop where
  once : d.queue.suspended.Nodup
  waits : ∀ r, r ∈ d.queue.suspended ↔ d.history.Waits r

namespace Desk.Lined

variable {d : Desk}

theorem of_new (capacity : Nat) : Lined ⟨[], ofCapacity capacity⟩ where
  once := List.nodup_nil
  waits _ := iff_of_false List.not_mem_nil nofun

/-- What is said to nobody in the line, and leaves it as it is. -/
theorem aside (lined : d.Lined) {x : Exchange} {q : Queue} (nobody : x.about? = none)
    (same : q.suspended = d.queue.suspended) : Lined ⟨d.history ++ [x], q⟩ where
  once := by rw [same]; exact lined.once
  waits r := by
    rw [History.waits_concat_of_other (by rw [nobody]; exact nofun), ← lined.waits r, same]

theorem serve (lined : d.Lined) (call : Call) : (d.serve call).Lined := by
  cases call with
  | offer id => exact lined.aside rfl (suspended_offer d.queue id)
  | close => exact lined.aside rfl rfl
  | abandon r =>
    refine ⟨lined.once.filter _, fun other => ?_⟩
    by_cases same : other = r
    · rw [same]
      exact iff_of_false (by simp [Desk.serve, abandon])
        ((History.waits_concat_of_about rfl).not.2 nofun)
    · have elsewhere : (Exchange.abandoned r).about? ≠ some other :=
        fun h => same (Option.some.inj h).symm
      refine Iff.trans ?_ (History.waits_concat_of_other elsewhere).symm
      rw [← lined.waits other]
      simp [Desk.serve, abandon, same]
  | receive r =>
    obtain ⟨once, own, others⟩ := receive_seats lined.once r
    refine ⟨once, fun other => ?_⟩
    by_cases same : other = r
    · rw [same]
      refine own.trans ((History.waits_concat_of_about rfl).trans ?_).symm
      simp
    · have elsewhere : (Exchange.received r (d.queue.receive r).1).about? ≠ some other :=
        fun h => same (Option.some.inj h).symm
      exact (others other same).trans
        ((lined.waits other).trans (History.waits_concat_of_other elsewhere).symm)

theorem after {q : Queue} (lined : Lined ⟨[], q⟩) (calls : List Call) :
    (Desk.after q calls).Lined :=
  Desk.after_keeps (fun _ call lined => lined.serve call) lined calls

/-- Nobody waits if the line is empty. -/
theorem suspended_eq_nil_iff (lined : d.Lined) :
    d.queue.suspended = [] ↔ ∀ r, ¬ d.history.Waits r := by
  rw [List.eq_nil_iff_forall_not_mem]
  exact forall_congr' fun r => (lined.waits r).not

end Desk.Lined

/-! ## What is seen -/

/-- What an observer sees of a queue with a history.

  * `returns` — no more was returned than was accepted.
  * `right`   — all is seen while the queue is open, and whenever nobody waits.
  * `blind`   — nothing is seen of a closed queue at which somebody waits.
  * `right_iff` — so what is seen is right, unless ids are buffered in a closed queue at which
    somebody waits.
  * `stats`   — the figures show the same. -/
structure Seen (h : History) (q : Queue) : Prop where
  returns : h.returned.length ≤ h.accepted.length
  right : .closed ∉ h ∨ (∀ r, ¬ h.Waits r) → q.length = h.accepted.length - h.returned.length
  blind : .closed ∈ h → (∃ r, h.Waits r) → q.length = 0
  right_iff : q.length = h.accepted.length - h.returned.length ↔
    .closed ∉ h ∨ (∀ r, ¬ h.Waits r) ∨ h.accepted.length = h.returned.length
  stats : q.stats.buffered.toNat = q.length

theorem Desk.Disciplined.seen {capacity : Nat} {d : Desk} (disciplined : d.Disciplined capacity)
    (lined : d.Lined) (small : capacity ≤ maxCapacity) : Seen d.history d.queue := by
  have held := disciplined.buffered_eq
  unfold History.buffered at held
  have returns : d.history.returned.length ≤ d.history.accepted.length := by
    rw [disciplined.fifo, List.length_append]
    exact Nat.le_add_right _ _
  have exactly (sight : .closed ∉ d.history ∨ ∀ r, ¬ d.history.Waits r) :
      d.queue.length = d.history.accepted.length - d.history.returned.length := by
    rw [held, length]
    rcases sight with unclosed | nobody
    · rw [if_pos (disciplined.isOpen.2 unclosed)]
    · rw [if_pos (lined.suspended_eq_nil_iff.2 nobody)]
      exact ite_self _
  have blind (shut : .closed ∈ d.history) (somebody : ∃ r, d.history.Waits r) :
      d.queue.length = 0 := by
    obtain ⟨r, waits⟩ := somebody
    have line : d.queue.suspended ≠ [] := fun none => lined.suspended_eq_nil_iff.1 none r waits
    rw [length, disciplined.closed shut, if_neg Bool.false_ne_true, if_neg line]
  refine ⟨returns, exactly, blind, ⟨fun right => ?_, fun sight => ?_⟩, ?_⟩
  · by_cases shut : .closed ∈ d.history
    · by_cases somebody : ∃ r, d.history.Waits r
      · rw [blind shut somebody] at right
        exact .inr (.inr (by omega))
      · exact .inr (.inl (not_exists.1 somebody))
    · exact .inl shut
  · rcases sight with unclosed | nobody | settled
    · exact exactly (.inl unclosed)
    · exact exactly (.inr nobody)
    · have empty : d.queue.buffer.length = 0 := by omega
      rw [length, settled, empty, Nat.sub_self, ite_self, ite_self]
  · have bounded : d.queue.length ≤ maxCapacity := by
      have := disciplined.bounded
      unfold length
      split <;> [skip; split] <;> omega
    have fits : maxCapacity < 2 ^ 64 := by decide
    rw [stats, UInt64.toNat_ofNat', Nat.mod_eq_of_lt (Nat.lt_of_le_of_lt bounded fits)]

/-- **What the length of a queue tells.** At every point of every run of offers, closes and
receivers, whoever waits at the queue and whatever has happened since: it is the number of ids that
were accepted and not returned, except that nothing is seen of a closed queue at which somebody
waits. -/
theorem length_of_history {capacity : Nat} (pos : 1 ≤ capacity) (small : capacity ≤ maxCapacity) :
    ∃ q, new? capacity = .ok q ∧ ∀ calls, Seen (Desk.after q calls).history
      (Desk.after q calls).queue :=
  ⟨ofCapacity capacity, new?_eq_ok pos small, fun calls =>
    ((Desk.Disciplined.of_new capacity).after calls).seen ((Desk.Lined.of_new capacity).after calls)
      small⟩

/-- Two receivers come to an empty queue, two ids are offered, and the first receiver takes one. The
second waits and has not asked again when the queue is closed. -/
def secondStillWaits : List Call :=
  [.receive 1, .receive 2, .offer ⟨"a"⟩, .offer ⟨"b"⟩, .receive 1, .close]

/-- Before the close the id that is left is seen, and once the second receiver has taken it the
count is right again. -/
theorem length_of_secondStillWaits :
    1 ≤ 2 ∧ 2 ≤ maxCapacity ∧
      (Desk.after (ofCapacity 2) (secondStillWaits.take 5)).queue.length = 1 ∧
      (Desk.after (ofCapacity 2) secondStillWaits).queue.length = 0 ∧
      (Desk.after (ofCapacity 2) (secondStillWaits ++ [Call.receive 2])).queue.length =
        (Desk.after (ofCapacity 2) (secondStillWaits ++ [Call.receive 2])).queue.buffer.length := by
  obtain ⟨q, hq, seen⟩ := @length_of_history 2 (by decide) (by decide)
  cases hq
  refine ⟨by decide, by decide, ?_, ?_, ?_⟩
  · exact ((seen (secondStillWaits.take 5)).right (.inl (by decide))).trans rfl
  · exact (seen secondStillWaits).blind (by decide) ⟨2, rfl⟩
  · have right := (seen (secondStillWaits ++ [Call.receive 2])).right_iff.2 (.inr (.inr rfl))
    rw [right]
    rfl

/-- One receiver waits, one id is accepted, and the queue is closed before the receiver asks again:
no id is seen, and one has been accepted and not returned. -/
theorem length_while_waited_for :
    ∃ q, new? 1 = .ok q ∧
      let d := Desk.after q [.receive 1, .offer ⟨"a"⟩, .close]
      d.queue.length = 0 ∧ d.queue.stats.buffered = 0 ∧
        d.history.accepted.length - d.history.returned.length = 1 :=
  ⟨ofCapacity 1, rfl, rfl, rfl, rfl⟩

end JobPipeline.Queue
