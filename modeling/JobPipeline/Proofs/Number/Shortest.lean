import JobPipeline.Number.Shortest
import Mathlib

/-!
# The shortest decimal is close to its number

Whatever decimal is chosen for `m · 2 ^ e`, it is no larger than the upper end of the interval of
reals that round to the number (`size_shortest_le`).
-/

namespace JobPipeline.Decimal

/-- The number that a decimal writes. -/
def size (d : Decimal) : ℚ := d.digits * 10 ^ d.exponent

/-- The upper end of an interval. -/
def Interval.top (i : Interval) : ℚ := i.hi / i.den

theorem size_strip (fuel : Nat) (d : Decimal) : (strip fuel d).size = d.size := by
  induction fuel generalizing d with
  | zero => rfl
  | succ fuel ih =>
    rw [strip]
    split_ifs with h
    · obtain ⟨n, hn⟩ : ∃ n, d.digits = 10 * n := ⟨d.digits / 10, by omega⟩
      rw [ih, size, size, hn, zpow_add₀ (by norm_num), Nat.mul_div_cancel_left n (by decide)]
      push_cast
      ring
    · rfl

theorem size_le_of_contains {i : Interval} {d : Decimal} (pos : i.den ≠ 0)
    (h : i.contains d = true) : d.size ≤ i.top := by
  have hden : (0 : ℚ) < i.den := by exact_mod_cast Nat.pos_of_ne_zero pos
  obtain ⟨digits, exponent⟩ := d
  rw [Interval.top, le_div_iff₀ hden, size]
  by_cases nonneg : 0 ≤ exponent
  · obtain ⟨k, rfl⟩ := Int.eq_ofNat_of_zero_le nonneg
    have h : digits * 10 ^ k * i.den ≤ i.hi := by
      simp only [Interval.contains, nonneg, if_true, Int.toNat_natCast] at h
      split_ifs at h <;> simp at h <;> omega
    rw [zpow_natCast]
    exact_mod_cast h
  · obtain ⟨k, hk⟩ := Int.eq_ofNat_of_zero_le (show 0 ≤ -exponent by omega)
    obtain rfl : exponent = -(k : Int) := by omega
    have h : digits * i.den ≤ i.hi * 10 ^ k := by
      simp only [Interval.contains, nonneg, if_false, Int.neg_neg, Int.toNat_natCast] at h
      split_ifs at h <;> simp at h <;> omega
    have h : (digits : ℚ) * i.den ≤ i.hi * 10 ^ k := by exact_mod_cast h
    rw [zpow_neg, zpow_natCast, ← div_eq_mul_inv, div_mul_eq_mul_div, div_le_iff₀ (by positivity)]
    exact h

theorem contains_of_onGrid {i : Interval} {magnitude : Int} {n : Nat} {d : Decimal}
    (h : i.onGrid magnitude n = some d) : i.contains d = true := by
  unfold Interval.onGrid at h
  extract_lets p num den below above r nearer at h
  split at h
  · rename_i hbelow habove
    have : nearer = below ∨ nearer = above := by
      show (if _ then _ else _) = _ ∨ (if _ then _ else _) = _
      split_ifs <;> simp
    rw [← Option.some.inj h]
    rcases this with h | h <;> rw [h] <;> assumption
  · rwa [← Option.some.inj h]
  · rwa [← Option.some.inj h]
  · cases h

theorem size_search_le {i : Interval} (pos : i.den ≠ 0) (mid : i.mid ≤ i.hi) (magnitude : Int)
    (more n : Nat) : (i.search magnitude more n).size ≤ i.top := by
  have fallback : (⟨i.mid / i.den, 0⟩ : Decimal).size ≤ i.top := by
    have : ((i.mid / i.den : Nat) : ℚ) ≤ i.mid / i.den := Nat.cast_div_le
    rw [size, Interval.top, zpow_zero, mul_one]
    refine this.trans ?_
    gcongr
  induction more generalizing n with
  | zero =>
    rw [Interval.search]
    cases h : i.onGrid magnitude n with
    | none => exact fallback
    | some d => exact size_le_of_contains pos (contains_of_onGrid h)
  | succ more ih =>
    rw [Interval.search]
    cases h : i.onGrid magnitude n with
    | none => exact ih (n + 1)
    | some d => exact size_le_of_contains pos (contains_of_onGrid h)

/-- **The shortest decimal stays within the interval of its number.** -/
theorem size_shortest_le (m : Nat) (e : Int) : (shortest m e).size ≤ (m + 1 / 2) * 2 ^ e := by
  by_cases zero : m = 0
  · rw [shortest, if_pos zero]
    simp only [size, Nat.cast_zero, zero_mul]
    positivity
  rw [shortest, if_neg zero]
  have pos : (Interval.of m e).den ≠ 0 := by
    simp only [Interval.of]
    split_ifs
    · exact one_ne_zero
    · exact (Nat.pow_pos (by decide)).ne'
  have top : (Interval.of m e).top = (m + 1 / 2) * 2 ^ e := by
    have quarter : (2 : ℚ) ^ e = 4 * 2 ^ (e - 2) := by
      rw [zpow_sub₀ two_ne_zero]
      norm_num
      ring
    rw [quarter]
    simp only [Interval.top, Interval.of]
    by_cases nonneg : 0 ≤ e - 2
    · obtain ⟨k, hk⟩ := Int.eq_ofNat_of_zero_le nonneg
      rw [hk, if_pos (by omega), if_pos (by omega), zpow_natCast, Int.toNat_natCast, Nat.pow_eq]
      push_cast
      ring
    · obtain ⟨k, hk⟩ := Int.eq_ofNat_of_zero_le (show 0 ≤ -(e - 2) by omega)
      have hk' : e - 2 = -(k : Int) := by omega
      rw [hk', if_neg (by omega), if_neg (by omega), zpow_neg, zpow_natCast, Int.neg_neg,
        Int.toNat_natCast, Nat.pow_eq]
      push_cast
      ring
  have mid : (Interval.of m e).mid ≤ (Interval.of m e).hi := by
    simp only [Interval.of]
    exact Nat.mul_le_mul_right _ (by omega)
  rw [size_strip, ← top]
  exact size_search_le pos mid _ _ _

end JobPipeline.Decimal
