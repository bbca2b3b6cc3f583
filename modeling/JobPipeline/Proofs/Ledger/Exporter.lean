import JobPipeline.Ledger.Basic
import JobPipeline.Proofs.Number.Binary64
import Mathlib

/-!
# The ledger and its exporter

An exporter is told of every event of a ledger and keeps figures of its own: it adds up the
increments of its counters, and shows the value last set of its gauge, as a binary64 number. So
there are two copies of each figure, and `exporter_follows_ledger` says how they compare after any
events.

The counters of an exporter only go up. The ledger takes a failure back when the job is sent for
another attempt later, and of that the exporter is told the retry and nothing else, so from then on
it shows one failure more (`exporter_keeps_forgiven_failure`). The two agree all along exactly if no
failure is taken back. A failure that is retried at once is never counted as one, so it does no
harm; told as a failure and a retry, which comes to the same ledger (`record_failed_retried`), it
would.
-/

namespace JobPipeline

namespace Ledger

/-! ## The figures of an exporter -/

/-- The figures that an exporter counts. -/
inductive Total
  | created
  | completed
  | failed
  | retried
deriving DecidableEq, Repr

namespace Total

def name : Total → String
  | .created => createdTotal
  | .completed => completedTotal
  | .failed => failedTotal
  | .retried => retriedTotal

/-- How far ahead the counter of the exporter is when the ledger has taken this many failures
back. -/
def lead (takenBack : Nat) : Total → UInt64
  | .failed => .ofNat takenBack
  | _ => 0

theorem lead_add (m n : Nat) (c : Total) : c.lead (m + n) = c.lead m + c.lead n := by
  cases c <;> simp [lead]

end Total

def total (l : Ledger) : Total → UInt64
  | .created => l.created
  | .completed => l.completed
  | .failed => l.failed
  | .retried => l.retried

namespace Signal

/-- What the signal adds to a counter. -/
def amount (counter : String) : Signal → UInt64
  | .increment name n => if name = counter then n else 0
  | .set _ _ => 0

/-- What the signal sets a gauge to. -/
def level? (gauge : String) : Signal → Option UInt64
  | .increment _ _ => none
  | .set name n => if name = gauge then some n else none

end Signal

/-- What a counter shows after these signals. -/
def accumulated (counter : String) (told : List Signal) : UInt64 :=
  (told.map (Signal.amount counter)).sum

/-- What a gauge was last set to by these signals, or zero. -/
def lastSet (gauge : String) (told : List Signal) : UInt64 :=
  (told.filterMap (Signal.level? gauge)).getLast?.getD 0

/-- What a gauge shows after these signals. -/
def level (gauge : String) (told : List Signal) : Binary64 := .ofNat (lastSet gauge told).toNat

theorem accumulated_append (counter : String) (told more : List Signal) :
    accumulated counter (told ++ more) = accumulated counter told + accumulated counter more := by
  simp [accumulated]

/-- A ledger, and what its exporter has been told. -/
structure Mirrored where
  ledger : Ledger
  told : List Signal

namespace Mirrored

def fresh : Mirrored := ⟨.zero, []⟩

def record (m : Mirrored) (e : Event) : Mirrored :=
  let after := m.ledger.record e
  ⟨after, m.told ++ e.signals after⟩

def after (es : List Event) : Mirrored := es.foldl record fresh

theorem after_concat (es : List Event) (e : Event) : after (es ++ [e]) = (after es).record e := by
  simp [after]

end Mirrored

/-! ## One event -/

/-- The counter that an event raises, if any. -/
def Event.raised? : Event → Option Total
  | .created => some .created
  | .claimed => none
  | .completed => some .completed
  | .failed => some .failed
  | .retried => some .retried
  | .failureReported true => some .retried
  | .failureReported false => some .failed

/-- Whether the event takes back a failure that has been counted. -/
def Event.forgives (l : Ledger) : Event → Bool
  | .retried => l.failed ≠ 0
  | _ => false

/-- The exporter is told of the counter that goes up, and of no other. -/
theorem accumulated_signals (c : Total) (e : Event) (after : Ledger) :
    accumulated c.name (e.signals after) = if e.raised? = some c then 1 else 0 := by
  cases c <;> rcases e with _ | _ | _ | _ | _ | (_ | _) <;> rfl

/-- In the ledger that counter goes up too, and a failure may be taken back. -/
theorem total_record (l : Ledger) (e : Event) (c : Total) :
    (l.record e).total c + c.lead (e.forgives l).toNat
      = l.total c + if e.raised? = some c then 1 else 0 := by
  have takenBack : saturatingPred l.failed + .ofNat (Event.retried.forgives l).toNat = l.failed := by
    by_cases h : l.failed = 0 <;> simp [saturatingPred, Event.forgives, h]
  cases c <;> rcases e with _ | _ | _ | _ | _ | (_ | _)
  case failed.retried => simpa [record, total, Event.raised?, Total.lead] using takenBack
  all_goals simp [record, total, Event.raised?, Event.forgives, Total.lead]

/-- The gauge is told of whatever changes the jobs in progress. -/
theorem lastSet_signals (told : List Signal) (l : Ledger) (e : Event)
    (h : lastSet inProgressGauge told = l.inProgress) :
    lastSet inProgressGauge (told ++ e.signals (l.record e)) = (l.record e).inProgress := by
  rcases e with _ | _ | _ | _ | _ | (_ | _) <;>
    simp_all [lastSet, Event.signals, Signal.level?, record]

/-- A failure followed by a retry comes to the same ledger as a failure that is retried at once, as
long as the counter of failures can go up. -/
theorem record_failed_retried {l : Ledger} (h : l.failed + 1 ≠ 0) :
    (l.record .failed).record .retried = l.record (.failureReported true) := by
  simp [record, saturatingPred, h]

/-! ## Any events -/

/-- How many failures the events take back. -/
def forgiven : Ledger → List Event → Nat
  | _, [] => 0
  | l, e :: es => (e.forgives l).toNat + forgiven (l.record e) es

theorem forgiven_concat (l : Ledger) (es : List Event) (e : Event) :
    forgiven l (es ++ [e]) = forgiven l es + (e.forgives (es.foldl record l)).toNat := by
  induction es generalizing l with
  | nil => simp [forgiven]
  | cons first rest ih => simp [forgiven, ih, Nat.add_assoc]

namespace Mirrored

theorem ledger_after (es : List Event) : (after es).ledger = es.foldl Ledger.record .zero := by
  induction es using List.reverseRecOn with
  | nil => rfl
  | append_singleton es e ih => simp [after_concat, record, ih]

/-- A counter of the exporter is ahead of the ledger by the failures taken back. -/
theorem accumulated_after (es : List Event) (c : Total) :
    accumulated c.name (after es).told = (after es).ledger.total c + c.lead (forgiven .zero es) := by
  induction es using List.reverseRecOn with
  | nil => cases c <;> rfl
  | append_singleton es e ih =>
    have step := total_record (after es).ledger e c
    rw [after_concat, forgiven_concat, ← ledger_after, Total.lead_add]
    simp only [record, accumulated_append, accumulated_signals, ih]
    calc (after es).ledger.total c + c.lead (forgiven .zero es) + (if e.raised? = some c then 1 else 0)
        = ((after es).ledger.total c + if e.raised? = some c then 1 else 0)
            + c.lead (forgiven .zero es) := by ac_rfl
      _ = ((after es).ledger.record e).total c
            + (c.lead (forgiven .zero es) + c.lead (e.forgives (after es).ledger).toNat) := by
          rw [← step]; ac_rfl

theorem lastSet_after (es : List Event) :
    lastSet inProgressGauge (after es).told = (after es).ledger.inProgress := by
  induction es using List.reverseRecOn with
  | nil => rfl
  | append_singleton es e ih =>
    rw [after_concat]
    exact lastSet_signals _ _ _ ih

/-- The counters of the exporter are those of the ledger. -/
def Agrees (m : Mirrored) : Prop := ∀ c : Total, accumulated c.name m.told = m.ledger.total c

theorem agrees_after_iff (es : List Event) :
    (after es).Agrees ↔ UInt64.ofNat (forgiven .zero es) = 0 := by
  simp only [Agrees, accumulated_after, UInt64.add_eq_left]
  refine ⟨fun h => h .failed, fun h c => ?_⟩
  cases c
  case failed => exact h
  all_goals rfl

/-- The counters have agreed all along exactly if no failure has been taken back. Failures are taken
back one at a time, so the first of them shows, however far the counters go. -/
theorem agrees_all_along_iff (es : List Event) :
    (∀ before, before <+: es → (after before).Agrees) ↔ forgiven .zero es = 0 := by
  induction es using List.reverseRecOn with
  | nil => simp [agrees_after_iff, forgiven]
  | append_singleton es e ih =>
    have apart : (∀ before, before <+: es ++ [e] → (after before).Agrees)
        ↔ (after (es ++ [e])).Agrees ∧ ∀ before, before <+: es → (after before).Agrees := by
      simp only [List.prefix_concat_iff, or_imp, forall_and, forall_eq]
    rw [apart, ih, agrees_after_iff, forgiven_concat]
    constructor
    · rintro ⟨now, before⟩
      rw [before, Nat.zero_add] at now ⊢
      cases h : e.forgives (es.foldl Ledger.record .zero)
      · rfl
      · rw [h] at now
        exact absurd now (by decide)
    · intro none
      exact ⟨by rw [none]; rfl, by omega⟩

end Mirrored

/-- After any events the gauge shows the jobs in progress, exactly as long as they are no more than
`2 ^ 53` and rounded beyond, and each counter shows that of the ledger, but that the failures taken
back are still counted. So the counters agree all along exactly if there are none. -/
theorem exporter_follows_ledger (es : List Event) :
    let m := Mirrored.after es
    m.ledger = es.foldl record .zero
    ∧ (∀ c : Total, accumulated c.name m.told = m.ledger.total c + c.lead (forgiven .zero es))
    ∧ level inProgressGauge m.told = .ofNat m.ledger.inProgress.toNat
    ∧ (m.ledger.inProgress.toNat ≤ 2 ^ 53 →
        (level inProgressGauge m.told).Is m.ledger.inProgress.toNat)
    ∧ ((∀ before, before <+: es → (Mirrored.after before).Agrees) ↔ forgiven .zero es = 0) := by
  have gauge : level inProgressGauge (Mirrored.after es).told
      = .ofNat (Mirrored.after es).ledger.inProgress.toNat := by
    rw [level, Mirrored.lastSet_after]
  refine ⟨Mirrored.ledger_after es, Mirrored.accumulated_after es, gauge, fun h => ?_,
    Mirrored.agrees_all_along_iff es⟩
  rw [gauge]
  exact Binary64.ofNat_is h

/-- A job that fails, is sent back later, and fails at once for good: two failures for the exporter,
one for the ledger. -/
theorem exporter_follows_ledger_of_retry :
    let es : List Event := [.claimed, .failed, .retried, .claimed, .failureReported false]
    (Mirrored.after es).ledger.inProgress.toNat ≤ 2 ^ 53
    ∧ (level inProgressGauge (Mirrored.after es).told).Is 0
    ∧ accumulated failedTotal (Mirrored.after es).told = 2
    ∧ (Mirrored.after es).ledger.failed = 1 := by
  intro es
  have h := exporter_follows_ledger es
  exact ⟨by decide, h.2.2.2.1 (by decide), h.2.1 .failed, rfl⟩

/-- A failure that is taken back stays counted at the exporter. -/
theorem exporter_keeps_forgiven_failure :
    (Mirrored.after [.failed, .retried]).ledger.failed = 0
    ∧ accumulated failedTotal (Mirrored.after [.failed, .retried]).told = 1
    ∧ ¬ ∀ es c, accumulated (Total.name c) (Mirrored.after es).told
        = (Mirrored.after es).ledger.total c := by
  refine ⟨by decide, by decide, fun h => ?_⟩
  exact absurd (h [.failed, .retried] .failed) (by decide)

end Ledger
end JobPipeline
