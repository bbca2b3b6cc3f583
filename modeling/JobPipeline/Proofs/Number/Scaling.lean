import JobPipeline.Proofs.Number.Rounding

/-!
# A significand times a power of ten

`scaled?` rounds more than once, and so it may miss the nearest number, but not by much. A decimal
that stays below `safe`, three units of the last bit under the limit, is never too large for it
(`isSome_scaled?`), and what it gives for a significand of 64 bits is an ordinary number
(`ordinary_of_scaled?`).
-/

namespace JobPipeline.Binary64

/-- The relative error that one rounding of a whole number adds at most. -/
def slack : ℚ := 1 / 2 ^ 53 + 1 / 2 ^ 120

/-- Decimals up to here are not too large, however they are rounded. -/
def safe : ℚ := (2 ^ 53 - 5 / 2) * 2 ^ (971 : ℤ)

theorem safe_lt_limit : safe * (1 + slack) ^ 2 < limit := by
  have : ((2 ^ 53 - 5 / 2) * (1 + slack) ^ 2 : ℚ) < 2 ^ 53 - 1 / 2 := by norm_num [slack]
  calc safe * (1 + slack) ^ 2 = (2 ^ 53 - 5 / 2) * (1 + slack) ^ 2 * 2 ^ (971 : ℤ) := by
        rw [safe]; ring
    _ < limit := by rw [limit]; gcongr

/-- The greatest power of ten that is an ordinary number. -/
theorem ten_pow_308 : (10 : ℚ) ^ 308 < safe ∧ safe < 10 ^ 309 := by
  have low : 2 * 10 ^ 308 < (2 ^ 54 - 5) * 2 ^ 971 := by decide +kernel
  have high : (2 ^ 54 - 5) * 2 ^ 971 < 2 * 10 ^ 309 := by decide +kernel
  have low : (2 : ℚ) * 10 ^ 308 < ((2 ^ 54 - 5 : Nat) : ℚ) * 2 ^ 971 := by exact_mod_cast low
  have high : ((2 ^ 54 - 5 : Nat) : ℚ) * 2 ^ 971 < (2 : ℚ) * 10 ^ 309 := by exact_mod_cast high
  rw [safe, zpow_ofNat]
  -- The powers are too large to be computed again.
  generalize (2 : ℚ) ^ 971 = two at *
  generalize (10 : ℚ) ^ 308 = less at *
  generalize (10 : ℚ) ^ 309 = more at *
  norm_num at low high ⊢
  constructor <;> linarith

theorem ordinary_ofNat {n : Nat} (h : (n : ℚ) < limit) : (ofNat n).Ordinary :=
  ordinary_ofRatio false one_ne_zero (by simpa using h)

/-- A whole number is changed by no more than the slack. -/
theorem size_ofNat {n : Nat} (pos : n ≠ 0) (h : (n : ℚ) < limit) :
    (ofNat n).size ≤ n * (1 + slack) ∧ n * (1 - slack) ≤ (ofNat n).size := by
  have ratio : (n : ℚ) / (1 : Nat) < limit := by simpa using h
  obtain ⟨up, down⟩ := size_ofRatio false one_ne_zero ratio
  have one : (1 : ℚ) ≤ n := by exact_mod_cast Nat.one_le_iff_ne_zero.2 pos
  simp only [ofNat, slack, Nat.cast_one, div_one] at *
  constructor <;> linarith

/-! ## Powers of ten -/

theorem safe_lt : safe < limit := by
  rw [safe, limit]
  gcongr
  norm_num

section
variable {k : Nat}

theorem pow_ten_lt_limit (h : k ≤ 308) : ((Nat.pow 10 k : Nat) : ℚ) < limit :=
  calc ((Nat.pow 10 k : Nat) : ℚ) = 10 ^ k := Nat.cast_pow 10 k
    _ ≤ 10 ^ 308 := pow_le_pow_right₀ (by norm_num) h
    _ < safe := ten_pow_308.1
    _ < limit := safe_lt

theorem pow_ten_ne_zero (k : Nat) : Nat.pow 10 k ≠ 0 := (Nat.pow_pos (by decide)).ne'

theorem exists_finite {x : Binary64} (h : x.Ordinary) :
    ∃ s m e, x = .finite s m e ∧ x.size = m * 2 ^ e := by
  cases x with
  | finite s m e => exact ⟨s, m, e, rfl, rfl⟩
  | infinite s => exact absurd h id
  | nan => exact absurd h id

theorem timesPowerOfTen_eq {x : Binary64} (hx : x.Ordinary) (hk : k ≤ 308) :
    ∃ s num den, den ≠ 0 ∧ timesPowerOfTen x k = ofRatio s num den ∧
      (num : ℚ) / den = x.size * (ofNat (Nat.pow 10 k)).size := by
  obtain ⟨s, m, e, rfl, size⟩ := exists_finite hx
  obtain ⟨s', m', e', hten, size'⟩ := exists_finite (ordinary_ofNat (pow_ten_lt_limit hk))
  obtain ⟨n, d, hn⟩ : ∃ n d, magnitude m e = (n, d) := ⟨_, _, rfl⟩
  obtain ⟨n', d', hn'⟩ : ∃ n d, magnitude m' e' = (n, d) := ⟨_, _, rfl⟩
  obtain ⟨pos, value⟩ := magnitude_spec m e
  obtain ⟨pos', value'⟩ := magnitude_spec m' e'
  rw [hn] at pos value
  rw [hn'] at pos' value'
  refine ⟨s, n * n', d * d', Nat.mul_ne_zero pos pos', ?_, ?_⟩
  · simp only [timesPowerOfTen, hten, hn, hn']
  · rw [size, size', ← value, ← value']
    push_cast
    rw [mul_div_mul_comm]

/-- A power of ten is no less than one half, however it is rounded. -/
theorem half_le_size (hk : k ≤ 308) : 1 / 2 ≤ (ofNat (Nat.pow 10 k)).size := by
  obtain ⟨-, large⟩ := size_ofNat (pow_ten_ne_zero k) (pow_ten_lt_limit hk)
  have one : (1 : ℚ) ≤ (Nat.pow 10 k : Nat) := by
    exact_mod_cast Nat.one_le_iff_ne_zero.2 (pow_ten_ne_zero k)
  refine le_trans ?_ large
  calc (1 / 2 : ℚ) ≤ 1 * (1 - slack) := by norm_num [slack]
    _ ≤ (Nat.pow 10 k : Nat) * (1 - slack) := by
      gcongr
      norm_num [slack]

theorem ordinary_timesPowerOfTen {x : Binary64} (hx : x.Ordinary) (hk : k ≤ 308)
    (h : x.size * (ofNat (Nat.pow 10 k)).size < limit) : (timesPowerOfTen x k).Ordinary := by
  obtain ⟨s, num, den, pos, heq, value⟩ := timesPowerOfTen_eq hx hk
  rw [heq]
  exact ordinary_ofRatio s pos (by rwa [value])

theorem overPowerOfTen_eq {x : Binary64} (hx : x.Ordinary) (hk : k ≤ 308) :
    ∃ s num den, den ≠ 0 ∧ overPowerOfTen x k = ofRatio s num den ∧
      (num : ℚ) / den = x.size / (ofNat (Nat.pow 10 k)).size := by
  obtain ⟨s, m, e, rfl, size⟩ := exists_finite hx
  obtain ⟨s', m', e', hten, size'⟩ := exists_finite (ordinary_ofNat (pow_ten_lt_limit hk))
  obtain ⟨n, d, hn⟩ : ∃ n d, magnitude m e = (n, d) := ⟨_, _, rfl⟩
  obtain ⟨n', d', hn'⟩ : ∃ n d, magnitude m' e' = (n, d) := ⟨_, _, rfl⟩
  obtain ⟨pos, value⟩ := magnitude_spec m e
  obtain ⟨pos', value'⟩ := magnitude_spec m' e'
  rw [hn] at pos value
  rw [hn'] at pos' value'
  have notZero : n' ≠ 0 := by
    rintro rfl
    have large := half_le_size hk
    rw [size', ← value'] at large
    norm_num at large
  refine ⟨s, n * d', d * n', Nat.mul_ne_zero pos notZero, ?_, ?_⟩
  · simp only [overPowerOfTen, hten, hn, hn']
  · rw [size, size', ← value, ← value']
    push_cast
    rw [div_div_div_eq]

end

/-! ## Decimals that are not too large -/

theorem ofNat_zero : ofNat 0 = .finite false 0 (-1074) := by
  unfold ofNat ofRatio
  rw [if_pos rfl]

/-- **A decimal below the limit is read**, its significand being multiplied or divided. -/
theorem isSome_scaled? {significand : Nat} {exponent : Int}
    (h : 0 ≤ exponent → (significand : ℚ) * 10 ^ exponent ≤ safe) :
    (scaled? significand exponent).isSome = true := by
  unfold scaled?
  dsimp only
  split_ifs with nonneg near zero
  · obtain ⟨k, rfl⟩ := Int.eq_ofNat_of_zero_le nonneg
    have hk : k ≤ 308 := by omega
    have ordinary : (timesPowerOfTen (ofNat significand) k).Ordinary := by
      by_cases hzero : significand = 0
      · subst hzero
        refine ordinary_timesPowerOfTen ?_ hk ?_
        · rw [ofNat_zero]
          exact ⟨by norm_num, by norm_num⟩
        · rw [ofNat_zero]
          norm_num [size, limit]
      · have bound := h nonneg
        have pow := size_ofNat (pow_ten_ne_zero k) (pow_ten_lt_limit hk)
        have one : (1 : ℚ) ≤ 10 ^ k := one_le_pow₀ (by norm_num)
        have small : (significand : ℚ) < limit := by
          have : (significand : ℚ) * 1 ≤ significand * 10 ^ k := by gcongr
          rw [zpow_natCast] at bound
          linarith [safe_lt]
        refine ordinary_timesPowerOfTen (ordinary_ofNat small) hk ?_
        calc (ofNat significand).size * (ofNat (Nat.pow 10 k)).size
            ≤ significand * (1 + slack) * ((Nat.pow 10 k : Nat) * (1 + slack)) := by
              have : 0 ≤ (ofNat (Nat.pow 10 k)).size := le_trans (by norm_num) (half_le_size hk)
              gcongr
              · norm_num [slack]
              · exact (size_ofNat hzero small).1
              · exact pow.1
          _ = significand * 10 ^ (k : ℤ) * (1 + slack) ^ 2 := by
              rw [zpow_natCast, Nat.pow_eq, Nat.cast_pow]
              push_cast
              ring
          _ ≤ safe * (1 + slack) ^ 2 := by gcongr
          _ < limit := safe_lt_limit
    obtain ⟨s, m, e, heq, -⟩ := exists_finite ordinary
    rw [Int.toNat_natCast, heq]
    rfl
  · rfl
  · -- The power alone is too large, so the significand is zero.
    obtain ⟨k, rfl⟩ := Int.eq_ofNat_of_zero_le nonneg
    have hk : 309 ≤ k := by omega
    have hzero : significand ≠ 0 := by
      rintro rfl
      exact zero (by rw [ofNat_zero]; rfl)
    have one : (1 : ℚ) ≤ significand := by exact_mod_cast Nat.one_le_iff_ne_zero.2 hzero
    have : (10 : ℚ) ^ 309 < 10 ^ 309 :=
      calc (10 : ℚ) ^ 309 ≤ 10 ^ k := pow_le_pow_right₀ (by norm_num) hk
        _ = 1 * 10 ^ (k : ℤ) := by rw [one_mul, zpow_natCast]
        _ ≤ significand * 10 ^ (k : ℤ) := by gcongr
        _ ≤ safe := h nonneg
        _ < 10 ^ 309 := ten_pow_308.2
    exact absurd this (lt_irrefl _)
  · rfl

/-! ## What is read is an ordinary number -/

theorem two_pow_lt_limit : (2 : ℚ) ^ 101 < limit :=
  calc (2 : ℚ) ^ 101 < (2 ^ 53 - 1 / 2) * 2 ^ (100 : ℤ) := by norm_num
    _ ≤ limit := by
      rw [limit]
      gcongr
      · norm_num
      · norm_num

/-- Each division leaves at most four times as much as there was. -/
theorem overPowerOfTen_small {x : Binary64} {k : Nat} (hx : x.Ordinary) (hk : k ≤ 308)
    (small : x.size ≤ 2 ^ 100) :
    (overPowerOfTen x k).Ordinary ∧ (overPowerOfTen x k).size ≤ 4 * x.size + 1 := by
  obtain ⟨s, num, den, pos, heq, value⟩ := overPowerOfTen_eq hx hk
  have nonneg : 0 ≤ x.size := by
    obtain ⟨s, m, e, -, size⟩ := exists_finite hx
    rw [size]
    positivity
  have quotient : (num : ℚ) / den ≤ 2 * x.size := by
    rw [value, div_le_iff₀ (lt_of_lt_of_le (by norm_num) (half_le_size hk))]
    nlinarith [half_le_size hk]
  have bound : (num : ℚ) / den < limit := by
    refine lt_of_le_of_lt ?_ two_pow_lt_limit
    calc (num : ℚ) / den ≤ 2 * x.size := quotient
      _ ≤ 2 * 2 ^ 100 := by gcongr
      _ = 2 ^ 101 := by norm_num
  rw [heq]
  refine ⟨ordinary_ofRatio s pos bound, ?_⟩
  have up := (size_ofRatio s pos bound).1
  have : (num : ℚ) / den / 2 ^ 53 ≤ num / den := div_le_self (by positivity) (by norm_num)
  have : (1 : ℚ) / 2 ^ 120 ≤ 1 := by norm_num
  linarith

theorem ordinary_descend {steps : Nat} {x : Binary64} {k : Nat} (hx : x.Ordinary)
    (small : (x.size + 1) * 5 ^ steps ≤ 2 ^ 100) : (descend steps x k).Ordinary := by
  induction steps generalizing x k with
  | zero => exact ⟨by norm_num, by norm_num⟩
  | succ steps ih =>
    have nonneg : 0 ≤ x.size := by
      obtain ⟨s, m, e, -, size⟩ := exists_finite hx
      rw [size]
      positivity
    have now : x.size ≤ 2 ^ 100 := by
      have : (1 : ℚ) ≤ 5 ^ (steps + 1) := one_le_pow₀ (by norm_num)
      nlinarith
    rw [descend]
    split_ifs with near zero
    · exact (overPowerOfTen_small hx near now).1
    · exact hx
    · obtain ⟨ordinary, grown⟩ := overPowerOfTen_small hx (Nat.le_refl 308) now
      refine ih ordinary (le_trans ?_ small)
      have : (0 : ℚ) < 5 ^ steps := by positivity
      rw [pow_succ]
      nlinarith

/-- **What is read is an ordinary number**, if the significand has no more than 64 bits. -/
theorem ordinary_of_scaled? {significand : Nat} {exponent : Int} {x : Binary64}
    (bits : significand < 18446744073709551616) (h : scaled? significand exponent = some x) :
    x.Ordinary := by
  have small : (ofNat significand).Ordinary ∧ (ofNat significand).size ≤ 2 ^ 66 := by
    have bound : (significand : ℚ) ≤ 2 ^ 64 := by exact_mod_cast bits.le
    have : (significand : ℚ) / (1 : Nat) < limit := by
      have : (2 : ℚ) ^ 64 < 2 ^ 101 := by norm_num
      rw [Nat.cast_one, div_one]
      linarith [two_pow_lt_limit]
    refine ⟨ordinary_ofRatio false one_ne_zero this, ?_⟩
    have up := (size_ofRatio false one_ne_zero this).1
    rw [Nat.cast_one, div_one] at up
    rw [ofNat]
    norm_num at up ⊢
    linarith
  unfold scaled? at h
  dsimp only at h
  split_ifs at h with nonneg near zero
  · obtain ⟨s, num, den, pos, heq, -⟩ := timesPowerOfTen_eq small.1
      (show exponent.toNat ≤ 308 by omega)
    rcases ordinary_or_infinite s num pos with ordinary | infinite
    · rw [heq] at h
      obtain ⟨s', m, e, hfinite, -⟩ := exists_finite ordinary
      rw [hfinite] at h ordinary
      cases h
      exact ordinary
    · rw [heq, infinite] at h
      cases h
  · cases h
    exact small.1
  · cases h
    refine ordinary_descend small.1 ?_
    have := small.2
    norm_num at this ⊢
    linarith

end JobPipeline.Binary64
