import JobPipeline.Number.Numeral
import Mathlib

/-!
# Decimal digits

The digits of a number, as it is printed, spell that number (`value_toDigits`). They are digits and
nothing else, and zero does not stand in front of others (`toDigits_head`). How many digits there
are tells how large a number is (`mul_le_value`, `value_lt`).
-/

namespace JobPipeline.Numeral

/-- What holds of the ten digits holds of every digit. -/
theorem forall_digit {P : Char → Prop} (ten : ∀ n < 10, P (Char.ofNat (48 + n))) {c : Char}
    (digit : isDigit c = true) : P c := by
  simp only [isDigit, Bool.and_eq_true, decide_eq_true_eq] at digit
  have low : 48 ≤ c.toNat := digit.1
  have high : c.toNat ≤ 57 := digit.2
  have found := ten (c.toNat - 48) (by omega)
  rwa [Nat.add_sub_cancel' low, Char.ofNat_toNat] at found

theorem isDigit_of_mem_toDigits {n : Nat} {c : Char} (h : c ∈ Nat.toDigits 10 n) :
    isDigit c = true :=
  Nat.isDigit_of_mem_toDigits (by decide) (by decide) h

theorem value_eq (n : Nat) (cs : List Char) : value n cs = Nat.ofDigitChars 10 cs n := by
  rw [value, Nat.ofDigitChars_eq_foldl]
  congr 1
  funext n c
  rw [Nat.mul_comm]

@[simp] theorem value_toDigits (n : Nat) : value 0 (Nat.toDigits 10 n) = n := by
  rw [value_eq, Nat.ofDigitChars_ten_toDigits]

theorem value_append (n : Nat) (cs ds : List Char) :
    value n (cs ++ ds) = value (value n cs) ds := by
  rw [value, value, value, List.foldl_append]

theorem value_cons (n : Nat) (c : Char) (cs : List Char) :
    value n (c :: cs) = value (n * 10 + (c.toNat - '0'.toNat)) cs := by
  rw [value, List.foldl_cons, value]

theorem value_replicate_zero (n k : Nat) : value n (List.replicate k '0') = n * 10 ^ k := by
  induction k generalizing n with
  | zero => simp [value]
  | succ k ih =>
    have zero : '0'.toNat - '0'.toNat = 0 := Nat.sub_self _
    rw [List.replicate_succ, value_cons, zero, ih, Nat.add_zero, pow_succ, mul_assoc,
      Nat.mul_comm 10]

/-- More digits make a number at least so many times as large. -/
theorem mul_le_value (n : Nat) (cs : List Char) : n * 10 ^ cs.length ≤ value n cs := by
  induction cs generalizing n with
  | nil => simp [value]
  | cons c cs ih =>
    rw [value_cons, List.length_cons]
    calc n * 10 ^ (cs.length + 1) = n * 10 * 10 ^ cs.length := by ring
      _ ≤ (n * 10 + (c.toNat - '0'.toNat)) * 10 ^ cs.length := by gcongr; omega
      _ ≤ value (n * 10 + (c.toNat - '0'.toNat)) cs := ih _

theorem le_value (n : Nat) (cs : List Char) : n ≤ value n cs :=
  (Nat.le_mul_of_pos_right n (by positivity)).trans (mul_le_value n cs)

theorem value_lt {cs : List Char} (digit : ∀ c ∈ cs, isDigit c = true) (n : Nat) :
    value n cs < (n + 1) * 10 ^ cs.length := by
  induction cs generalizing n with
  | nil => simp [value]
  | cons c cs ih =>
    have nine : c.toNat - '0'.toNat ≤ 9 := by
      have := digit c List.mem_cons_self
      simp only [isDigit, Bool.and_eq_true, decide_eq_true_eq] at this
      have : c.toNat ≤ '9'.toNat := this.2
      have : '9'.toNat = 57 := rfl
      have : '0'.toNat = 48 := rfl
      omega
    rw [value_cons, List.length_cons]
    calc value (n * 10 + (c.toNat - '0'.toNat)) cs
        < (n * 10 + (c.toNat - '0'.toNat) + 1) * 10 ^ cs.length :=
          ih (fun d hd => digit d (List.mem_cons_of_mem c hd)) _
      _ ≤ (n + 1) * 10 * 10 ^ cs.length := by gcongr; omega
      _ = (n + 1) * 10 ^ (cs.length + 1) := by ring

/-- Only zero itself is printed with a zero in front. -/
theorem toDigits_head (n : Nat) :
    ∃ c cs, Nat.toDigits 10 n = c :: cs ∧ (c = '0' → cs = []) := by
  have head (n : Nat) (pos : 0 < n) : ∃ c cs, Nat.toDigits 10 n = c :: cs ∧ c ≠ '0' := by
    induction n using Nat.strongRecOn with
    | ind n ih =>
      rw [Nat.toDigits_eq_if (by decide)]
      split
      · rename_i small
        refine ⟨_, _, rfl, ?_⟩
        interval_cases n <;> decide
      · obtain ⟨c, cs, heq, hc⟩ := ih (n / 10) (by omega) (by omega)
        exact ⟨c, _, by rw [heq]; rfl, hc⟩
  rcases Nat.eq_zero_or_pos n with rfl | pos
  · exact ⟨'0', [], rfl, fun _ => rfl⟩
  · obtain ⟨c, cs, heq, hc⟩ := head n pos
    exact ⟨c, cs, heq, fun h => absurd h hc⟩

/-! ## Integers as they are shown -/

theorem nat?_toDigits (n : Nat) : nat? (Nat.toDigits 10 n) = some n := by
  obtain ⟨c, cs, hdigits, -⟩ := toDigits_head n
  have nonempty : (Nat.toDigits 10 n).isEmpty = false := by rw [hdigits]; rfl
  have digits : (Nat.toDigits 10 n).all isDigit = true :=
    List.all_eq_true.2 fun c hc => isDigit_of_mem_toDigits hc
  simp [nat?, nonempty, digits]

theorem toList_toString (n : Int) : (toString n).toList =
    if n < 0 then '-' :: Nat.toDigits 10 n.natAbs else Nat.toDigits 10 n.natAbs := by
  cases n with
  | ofNat m =>
    have : ¬ Int.ofNat m < 0 := by simp
    rw [if_neg this]
    exact String.toList_ofList
  | negSucc m =>
    rw [if_pos (Int.negSucc_lt_zero m)]
    show ("-" ++ Nat.repr (m + 1)).toList = _
    simp [Nat.repr]

/-- An integer starts with its sign or with a digit. -/
theorem toString_head (n : Int) :
    ∃ c cs, (toString n).toList = c :: cs ∧ (c = '-' ∨ isDigit c = true) := by
  obtain ⟨c, cs, hdigits, -⟩ := toDigits_head n.natAbs
  rw [toList_toString]
  by_cases neg : n < 0
  · exact ⟨_, _, if_pos neg, .inl rfl⟩
  · refine ⟨c, cs, by rw [if_neg neg, hdigits], .inr ?_⟩
    exact isDigit_of_mem_toDigits (n := n.natAbs) (hdigits ▸ List.mem_cons_self)

theorem int64?_toString {n : Int} (low : -9223372036854775808 ≤ n)
    (high : n < 9223372036854775808) : int64? (toString n) = some n := by
  obtain ⟨c, cs, hdigits, -⟩ := toDigits_head n.natAbs
  have hc : isDigit c = true :=
    isDigit_of_mem_toDigits (n := n.natAbs) (hdigits ▸ List.mem_cons_self)
  have noSign : c ≠ '+' ∧ c ≠ '-' := by
    constructor <;> rintro rfl <;> revert hc <;> decide
  have read := nat?_toDigits n.natAbs
  rw [hdigits] at read
  unfold int64?
  rw [toList_toString, hdigits]
  by_cases neg : n < 0
  · have value : -|n| = n := by rw [abs_of_neg neg, neg_neg]
    simp [neg, read, value, low, high]
  · have value : |n| = n := abs_of_nonneg (not_lt.1 neg)
    simp [neg, noSign, read, value, low, high]

theorem range_of_int64? {s : String} {n : Int} (h : int64? s = some n) :
    -9223372036854775808 ≤ n ∧ n < 9223372036854775808 := by
  unfold int64? at h
  simpa using (Option.filter_eq_some_iff.1 h).2

end JobPipeline.Numeral
