import JobPipeline.Number.Binary64
import Mathlib

/-!
# Whole numbers in binary64

A mantissa has 53 bits, so a whole number of no more than 53 bits becomes itself (`ofNat_is`). One
bit more, and the odd ones have no number of their own.
-/

namespace JobPipeline

namespace Binary64

/-- The number is the given whole number, and not just close to it. -/
def Is (x : Binary64) (n : Nat) : Prop :=
  ∃ m e, x = .finite false m e ∧ (magnitude m e).1 = n * (magnitude m e).2

/-- A rounding that is in range. -/
theorem ofRatio_eq_finite {negative : Bool} {num den n d m : Nat} {e : Int} (pos : num ≠ 0)
    (exponent : exponentFor num den = e) (scaled : scaledDown num den e = (n, d))
    (rounded : roundHalfEven n d = m) (fits : m ≠ Nat.pow 2 53) (range : e ≤ 971) :
    ofRatio negative num den = .finite negative m e := by
  -- One step at a time, so that no power of two is ever unfolded.
  unfold ofRatio
  rw [if_neg pos, exponent]
  dsimp only
  rw [scaled]
  dsimp only
  rw [rounded, if_neg fits]
  exact if_neg (by omega)

/-- A positive whole number below `2 ^ 53` has `n · 2 ^ s` for its mantissa, `s` being what is
missing to 53 bits. -/
theorem ofNat_eq_finite {n : Nat} (pos : n ≠ 0) (h : n < 2 ^ 53) :
    ofNat n = .finite false (n * 2 ^ (52 - n.log2)) (-(52 - n.log2 : Nat)) := by
  have bits : n.log2 ≤ 52 := Nat.lt_succ_iff.1 ((Nat.log2_lt pos).2 h)
  obtain ⟨s, hs⟩ : ∃ s, s = 52 - n.log2 := ⟨_, rfl⟩
  have exponent : (n.log2 : Int) - ((1 : Nat).log2 : Int) - 52 = -(s : Int) := by
    have : (1 : Nat).log2 = 0 := by decide
    omega
  have scaled : scaledDown n 1 (-(s : Int)) = (n * 2 ^ s, 1) := by
    unfold scaledDown
    split
    · have : s = 0 := by omega
      simp [this]
    · simp
  have enough : ¬ n * 2 ^ s < 2 ^ 52 := by
    have whole : 2 ^ n.log2 * 2 ^ s = 2 ^ 52 := by rw [← pow_add]; congr 1; omega
    rw [← whole, not_lt]
    exact Nat.mul_le_mul_right _ (Nat.log2_self_le pos)
  have fits : n * 2 ^ s < 2 ^ 53 := by
    have whole : 2 ^ (n.log2 + 1) * 2 ^ s = 2 ^ 53 := by rw [← pow_add]; congr 1; omega
    rw [← whole]
    exact Nat.mul_lt_mul_of_pos_right Nat.lt_log2_self (by positivity)
  have exp : exponentFor n 1 = -(s : Int) := by
    simp only [exponentFor, exponent, scaled]
    rw [if_neg (by simpa using enough)]
    omega
  have rounded : roundHalfEven (n * 2 ^ s) 1 = n * 2 ^ s := by
    simpa using roundHalfEven_exact (n * 2 ^ s) Nat.one_pos
  rw [← hs]
  exact ofRatio_eq_finite pos exp scaled rounded (by simpa using fits.ne) (by omega)

/-- Whole numbers up to `2 ^ 53` are binary64 numbers. -/
theorem ofNat_is {n : Nat} (h : n ≤ 2 ^ 53) : (ofNat n).Is n := by
  rcases Nat.eq_zero_or_pos n with rfl | pos
  · exact ⟨0, -1074, rfl, (Nat.zero_mul _).symm⟩
  rcases h.eq_or_lt with rfl | h
  · exact ⟨2 ^ 52, 1, by decide +kernel, by decide⟩
  refine ⟨_, _, ofNat_eq_finite pos.ne' h, ?_⟩
  unfold magnitude
  split
  · have : 52 - n.log2 = 0 := by omega
    simp [this]
  · simp

/-- The first whole number that is lost. -/
example : ofNat (2 ^ 53 + 1) = ofNat (2 ^ 53) := by decide +kernel

end Binary64
end JobPipeline
