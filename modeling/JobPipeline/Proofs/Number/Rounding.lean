import JobPipeline.Number.Binary64
import Mathlib

/-!
# How far a rounding goes

`ofRatio` gives an `Ordinary` number, which is a finite one of the format, unless the quotient comes
too close to `2 ^ 1024` (`ordinary_ofRatio`), and an ordinary result is larger than the quotient by
at most half a unit of its last bit (`size_ofRatio_le`). Sizes are rational numbers, so that powers
of two of either sign are alike.
-/

namespace JobPipeline.Binary64

/-- The finite numbers of the format. -/
def Ordinary : Binary64 → Prop
  | .finite _ m e => m < 2 ^ 53 ∧ e ≤ 971
  | _ => False

/-- The absolute value of a finite number. -/
def size : Binary64 → ℚ
  | .finite _ m e => m * 2 ^ e
  | _ => 0

/-- The quotients from here on become infinite. -/
def limit : ℚ := (2 ^ 53 - 1 / 2) * 2 ^ (971 : ℤ)

theorem scaledDown_spec (num : Nat) {den : Nat} (pos : den ≠ 0) (e : Int) :
    (scaledDown num den e).2 ≠ 0 ∧
      ((scaledDown num den e).1 : ℚ) / (scaledDown num den e).2 = num / den / 2 ^ e := by
  by_cases h : 0 ≤ e
  · obtain ⟨k, rfl⟩ := Int.eq_ofNat_of_zero_le h
    simp [scaledDown, pos, div_div]
  · obtain ⟨k, hk⟩ := Int.eq_ofNat_of_zero_le (show 0 ≤ -e by omega)
    obtain rfl : e = -(k : Int) := by omega
    have hk : k ≠ 0 := by omega
    simp [scaledDown, pos, hk, zpow_neg]
    ring

theorem magnitude_spec (m : Nat) (e : Int) :
    (magnitude m e).2 ≠ 0 ∧ ((magnitude m e).1 : ℚ) / (magnitude m e).2 = m * 2 ^ e := by
  by_cases h : 0 ≤ e
  · obtain ⟨k, rfl⟩ := Int.eq_ofNat_of_zero_le h
    simp [magnitude]
  · obtain ⟨k, hk⟩ := Int.eq_ofNat_of_zero_le (show 0 ≤ -e by omega)
    obtain rfl : e = -(k : Int) := by omega
    have hk : k ≠ 0 := by omega
    simp [magnitude, hk, zpow_neg]
    ring

/-! ## One rounding -/

section
variable {num den n : Nat}

theorem roundHalfEven_le (pos : den ≠ 0) (h : num ≤ n * den) : roundHalfEven num den ≤ n := by
  have whole := Nat.div_add_mod num den
  have bound : num / den ≤ n := Nat.div_le_of_le_mul (by rwa [Nat.mul_comm] at h)
  rcases bound.eq_or_lt with heq | lt
  · have exact : num % den = 0 := by
      rw [heq, Nat.mul_comm] at whole
      omega
    simp [roundHalfEven, exact, heq, Nat.pos_of_ne_zero pos]
  · simp only [roundHalfEven]
    split_ifs <;> omega

theorem roundHalfEven_near (pos : den ≠ 0) :
    (roundHalfEven num den : ℚ) - 1 / 2 ≤ num / den ∧
      (num : ℚ) / den ≤ roundHalfEven num den + 1 / 2 := by
  have whole := Nat.div_add_mod' num den
  have less := Nat.mod_lt num (Nat.pos_of_ne_zero pos)
  have next : (num / den + 1) * den = num / den * den + den := Nat.succ_mul _ _
  have near : 2 * (roundHalfEven num den * den) ≤ 2 * num + den ∧
      2 * num ≤ 2 * (roundHalfEven num den * den) + den := by
    simp only [roundHalfEven]
    generalize num / den = q at whole next ⊢
    generalize num % den = r at whole less ⊢
    split_ifs <;> omega
  have hden : (0 : ℚ) < den := by exact_mod_cast Nat.pos_of_ne_zero pos
  have near : (2 : ℚ) * (roundHalfEven num den * den) ≤ 2 * num + den ∧
      (2 : ℚ) * num ≤ 2 * (roundHalfEven num den * den) + den := by exact_mod_cast near
  constructor
  · rw [le_div_iff₀ hden]
    linarith
  · rw [div_le_iff₀ hden]
    linarith

end

/-! ## The exponent -/

theorem log2_bounds {n : Nat} (pos : n ≠ 0) :
    (2 : ℚ) ^ (n.log2 : ℤ) ≤ n ∧ (n : ℚ) < 2 ^ (n.log2 + 1 : ℤ) := by
  have low := Nat.log2_self_le pos
  have high := Nat.lt_log2_self (n := n)
  constructor
  · exact_mod_cast low
  · exact_mod_cast high

section
variable {num den : Nat}

/-- The exponent leaves no more than 53 bits in front of the point, and no fewer unless it is the
least one. -/
theorem exponentFor_spec (hnum : num ≠ 0) (hden : den ≠ 0) :
    (num : ℚ) / den < 2 ^ (exponentFor num den + 53) ∧ -1074 ≤ exponentFor num den ∧
      (-1074 < exponentFor num den → (2 : ℚ) ^ (exponentFor num den + 52) ≤ num / den) := by
  obtain ⟨e, he⟩ : ∃ e : Int, e = num.log2 - den.log2 - 52 := ⟨_, rfl⟩
  obtain ⟨numLow, numHigh⟩ := log2_bounds hnum
  obtain ⟨denLow, denHigh⟩ := log2_bounds hden
  have denPos : (0 : ℚ) < den := by exact_mod_cast Nat.pos_of_ne_zero hden
  have high : (num : ℚ) / den < 2 ^ (e + 53) := by
    rw [div_lt_iff₀ denPos]
    calc (num : ℚ) < 2 ^ (num.log2 + 1 : ℤ) := numHigh
      _ = 2 ^ (e + 53) * 2 ^ (den.log2 : ℤ) := by rw [← zpow_add₀ two_ne_zero]; congr 1; omega
      _ ≤ 2 ^ (e + 53) * den := by gcongr
  have low : (2 : ℚ) ^ (e + 51) ≤ num / den := by
    rw [le_div_iff₀ denPos]
    calc (2 : ℚ) ^ (e + 51) * den ≤ 2 ^ (e + 51) * 2 ^ (den.log2 + 1 : ℤ) := by gcongr
      _ = 2 ^ (num.log2 : ℤ) := by rw [← zpow_add₀ two_ne_zero]; congr 1; omega
      _ ≤ num := numLow
  obtain ⟨pos, scaled⟩ := scaledDown_spec num hden e
  -- Whether one bit is missing is decided on the quotient scaled by the first guess.
  have short : (scaledDown num den e).1 < (scaledDown num den e).2 * Nat.pow 2 52 ↔
      (num : ℚ) / den < 2 ^ (e + 52) := by
    have hpos : (0 : ℚ) < (scaledDown num den e).2 := by exact_mod_cast Nat.pos_of_ne_zero pos
    rw [zpow_add₀ two_ne_zero, mul_comm (2 ^ e : ℚ), ← div_lt_iff₀ (by positivity), ← scaled,
      div_lt_iff₀ hpos, Nat.mul_comm]
    norm_cast
  have heq : exponentFor num den =
      max (-1074) (if (num : ℚ) / den < 2 ^ (e + 52) then e - 1 else e) := by
    simp only [exponentFor, ← he, short]
  rw [heq]
  split_ifs with hshort
  · refine ⟨hshort.trans_le (zpow_le_zpow_right₀ one_le_two (by omega)), by omega, fun above => ?_⟩
    rw [show max (-1074) (e - 1) = e - 1 by omega]
    exact (zpow_le_zpow_right₀ one_le_two (by omega)).trans low
  · refine ⟨high.trans_le (zpow_le_zpow_right₀ one_le_two (by omega)), by omega, fun above => ?_⟩
    rw [show max (-1074) e = e by omega]
    exact not_lt.1 hshort

/-! ## The result -/

/-- The mantissa before it is brought into range. -/
def mantissaFor (num den : Nat) : Nat :=
  roundHalfEven (scaledDown num den (exponentFor num den)).1
    (scaledDown num den (exponentFor num den)).2

theorem mantissaFor_spec (hnum : num ≠ 0) (hden : den ≠ 0) :
    mantissaFor num den ≤ 2 ^ 53 ∧
      (mantissaFor num den - 1 / 2 : ℚ) * 2 ^ exponentFor num den ≤ num / den ∧
      (num : ℚ) / den ≤ (mantissaFor num den + 1 / 2) * 2 ^ exponentFor num den := by
  obtain ⟨pos, scaled⟩ := scaledDown_spec num hden (exponentFor num den)
  obtain ⟨high, -, -⟩ := exponentFor_spec hnum hden
  obtain ⟨down, up⟩ := @roundHalfEven_near (scaledDown num den (exponentFor num den)).1 _ pos
  have hpos : (0 : ℚ) < (scaledDown num den (exponentFor num den)).2 := by
    exact_mod_cast Nat.pos_of_ne_zero pos
  refine ⟨roundHalfEven_le pos ?_, ?_, ?_⟩
  · rw [zpow_add₀ two_ne_zero, mul_comm, ← div_lt_iff₀ (by positivity), ← scaled,
      div_lt_iff₀ hpos] at high
    exact_mod_cast high.le
  · rw [scaled] at down
    rwa [mantissaFor, ← le_div_iff₀ (by positivity)]
  · rw [scaled] at up
    rwa [mantissaFor, ← div_le_iff₀ (by positivity)]

/-- The result is infinite, or it is the mantissa and the exponent, the mantissa halved if it has
outgrown its bits. -/
theorem ofRatio_cases {negative : Bool} {x : Binary64} (hnum : num ≠ 0)
    (h : ofRatio negative num den = x) :
    ∃ m e, x = (if 971 < e then .infinite negative else .finite negative m e) ∧
      ((mantissaFor num den = 2 ^ 53 ∧ m = 2 ^ 52 ∧ e = exponentFor num den + 1) ∨
        (mantissaFor num den ≠ 2 ^ 53 ∧ m = mantissaFor num den ∧ e = exponentFor num den)) := by
  unfold ofRatio at h
  rw [if_neg hnum] at h
  -- The matches are split in place, so that no power of two is ever unfolded.
  extract_lets e at h
  split at h
  rename_i n d scaled
  extract_lets m at h
  split at h
  rename_i m' e' carried
  have hm : m = mantissaFor num den := by
    show roundHalfEven n d = _
    rw [mantissaFor, scaled]
  have whole : Nat.pow 2 53 = 2 ^ 53 := Nat.pow_eq
  have half : Nat.pow 2 52 = 2 ^ 52 := Nat.pow_eq
  refine ⟨m', e', h.symm, ?_⟩
  rw [← hm, ← whole, ← half]
  by_cases carry : m = Nat.pow 2 53
  · rw [if_pos carry] at carried
    cases carried
    exact .inl ⟨carry, rfl, rfl⟩
  · rw [if_neg carry] at carried
    cases carried
    exact .inr ⟨carry, rfl, rfl⟩

theorem ordinary_or_infinite (negative : Bool) (num : Nat) (hden : den ≠ 0) :
    (ofRatio negative num den).Ordinary ∨ ofRatio negative num den = .infinite negative := by
  by_cases hnum : num = 0
  · subst hnum
    exact .inl ⟨by norm_num, by norm_num⟩
  · obtain ⟨m, e, h, shape⟩ := ofRatio_cases hnum (rfl : ofRatio negative num den = _)
    have small : m < 2 ^ 53 := by
      have := (mantissaFor_spec hnum hden).1
      rcases shape with ⟨-, rfl, -⟩ | ⟨ne, rfl, -⟩
      · norm_num
      · omega
    rw [h]
    split_ifs with far
    · exact .inr rfl
    · exact .inl ⟨small, by omega⟩

/-- What does not come close to the limit stays finite. -/
theorem ordinary_ofRatio (negative : Bool) (hden : den ≠ 0) (h : (num : ℚ) / den < limit) :
    (ofRatio negative num den).Ordinary := by
  refine (ordinary_or_infinite negative num hden).resolve_right fun hinf => ?_
  have hnum : num ≠ 0 := by
    rintro rfl
    exact absurd hinf nofun
  obtain ⟨m, e, heq, shape⟩ := ofRatio_cases hnum hinf
  have far : 971 < e := by
    by_contra near
    rw [if_neg near] at heq
    cases heq
  obtain ⟨-, -, high⟩ := exponentFor_spec hnum hden
  by_cases most : 971 < exponentFor num den
  · have : limit ≤ num / den :=
      calc limit ≤ 2 ^ 53 * 2 ^ (971 : ℤ) := by rw [limit]; gcongr; norm_num
        _ = (2 : ℚ) ^ (1024 : ℤ) := by rw [← zpow_natCast, ← zpow_add₀ two_ne_zero]; rfl
        _ ≤ 2 ^ (exponentFor num den + 52) := zpow_le_zpow_right₀ one_le_two (by omega)
        _ ≤ num / den := high (by omega)
    exact absurd h (not_lt.2 this)
  · -- The exponent has come from the carry alone.
    rcases shape with ⟨carry, -, he⟩ | ⟨-, -, he⟩
    · obtain ⟨-, near, -⟩ := mantissaFor_spec hnum hden
      rw [carry, show exponentFor num den = 971 by omega] at near
      refine absurd h (not_lt.2 (le_trans (le_of_eq ?_) near))
      norm_num [limit]
    · omega

/-- A rounding adds no more than half a unit of the last bit, and takes away no more. -/
theorem size_ofRatio (negative : Bool) (hden : den ≠ 0) (h : (num : ℚ) / den < limit) :
    (ofRatio negative num den).size ≤ num / den + num / den / 2 ^ 53 + 1 / 2 ^ 120 ∧
      num / den - num / den / 2 ^ 53 - 1 / 2 ^ 120 ≤ (ofRatio negative num den).size := by
  have ordinary := ordinary_ofRatio negative hden h
  by_cases hnum : num = 0
  · subst hnum
    have zero : ofRatio negative 0 den = .finite negative 0 (-1074) := by
      unfold ofRatio
      rw [if_pos rfl]
    norm_num [zero, size]
  · obtain ⟨m, e, heq, shape⟩ := ofRatio_cases hnum (rfl : ofRatio negative num den = _)
    have near : ¬ 971 < e := by
      intro far
      rw [heq, if_pos far] at ordinary
      exact ordinary
    have size :
        (ofRatio negative num den).size = mantissaFor num den * 2 ^ exponentFor num den := by
      rw [heq, if_neg near]
      rcases shape with ⟨carry, rfl, rfl⟩ | ⟨-, rfl, rfl⟩
      · rw [carry, Binary64.size, zpow_add₀ two_ne_zero]
        norm_num
        ring
      · rfl
    obtain ⟨-, least, high⟩ := exponentFor_spec hnum hden
    obtain ⟨-, down, up⟩ := mantissaFor_spec hnum hden
    have unit : (2 : ℚ) ^ exponentFor num den / 2 ≤ num / den / 2 ^ 53 + 1 / 2 ^ 120 := by
      have nonneg : (0 : ℚ) ≤ num / den := by positivity
      rcases least.eq_or_lt with least | above
      · have tiny : (2 : ℚ) ^ exponentFor num den ≤ 2 ^ (-120 : ℤ) :=
          zpow_le_zpow_right₀ one_le_two (by omega)
        have bits : (2 : ℚ) ^ (-120 : ℤ) = 1 / 2 ^ 120 := by norm_num
        have : (0 : ℚ) ≤ num / den / 2 ^ 53 := by positivity
        rw [bits] at tiny
        linarith
      · have := high above
        rw [zpow_add₀ two_ne_zero] at this
        have : (2 : ℚ) ^ exponentFor num den / 2 ≤ num / den / 2 ^ 53 := by
          rw [le_div_iff₀ (by positivity)]
          norm_num at this ⊢
          linarith
        exact this.trans (le_add_of_nonneg_right (by positivity))
    rw [size]
    constructor <;> linarith

end

end JobPipeline.Binary64
