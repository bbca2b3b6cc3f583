import JobPipeline.Time.Calendar

/-!
# Instants

An `Instant` counts seconds from 1970-01-01 UTC and nanoseconds within the second. A leap second is
the second 59 of a minute with a nanosecond count of a thousand million or more, so it falls between
that second and the next in the order.
-/

namespace JobPipeline

/-- A point in time. -/
structure Instant where
  seconds : Int
  nanos : Nat
deriving DecidableEq, Repr

namespace Instant

/-- Whether `a` is not later than `b`. -/
def le (a b : Instant) : Bool :=
  a.seconds < b.seconds || (a.seconds == b.seconds && a.nanos ≤ b.nanos)

instance : LE Instant := ⟨fun a b => a.le b = true⟩

instance (a b : Instant) : Decidable (a ≤ b) := inferInstanceAs (Decidable (a.le b = true))

theorem le_iff {a b : Instant} :
    a ≤ b ↔ a.seconds < b.seconds ∨ (a.seconds = b.seconds ∧ a.nanos ≤ b.nanos) := by
  change a.le b = true ↔ _
  simp [le]

theorem le_refl (a : Instant) : a ≤ a := by simp [le_iff]

theorem le_total (a b : Instant) : a ≤ b ∨ b ≤ a := by
  simp only [le_iff]; omega

theorem le_trans {a b c : Instant} (h : a ≤ b) (h' : b ≤ c) : a ≤ c := by
  simp only [le_iff] at *; omega

theorem le_antisymm {a b : Instant} (h : a ≤ b) (h' : b ≤ a) : a = b := by
  simp only [le_iff] at *
  cases a; cases b; simp only [Instant.mk.injEq] at *; omega

def dayAndSecond (t : Instant) : Int × Nat := (t.seconds / 86400, (t.seconds % 86400).toNat)

end Instant
end JobPipeline
