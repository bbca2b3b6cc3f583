import JobPipeline.Number.Layout
import JobPipeline.Proofs.Json.Sequences
import JobPipeline.Proofs.Number.Scaling
import JobPipeline.Proofs.Number.Shortest

/-!
# Printed real numbers can be read

A real number is printed as the shortest decimal of its interval, and reading a decimal rounds more
than once. So a real number need not be read as itself; but it is always read as some real number of
the format (`reads_text_real`), as its decimal never is too large for the reader.
-/

namespace JobPipeline.Json

open Utf8 (Symbol)

/-! ## Reading a decimal -/

theorem gather_spec {n m left : Nat} {cs : List Char} (h : gather n cs = (m, left)) :
    left ≤ cs.length ∧ m * 10 ^ left ≤ Numeral.value n cs ∧
      (n < 18446744073709551616 → m < 18446744073709551616) := by
  induction cs generalizing n with
  | nil =>
    cases h
    simp [Numeral.value]
  | cons c cs ih =>
    rw [gather] at h
    split_ifs at h with fits
    · obtain ⟨short, low, bits⟩ := ih h
      rw [Numeral.value_cons]
      exact ⟨short.trans (by simp), low, fun _ => bits fits⟩
    · cases h
      exact ⟨by simp, by simpa using Numeral.mul_le_value m (c :: cs), id⟩

namespace Written

/-- The number that is written, but for its sign. -/
def size (w : Written) : ℚ :=
  Numeral.value 0 (w.whole ++ w.fraction) * 10 ^ (w.exponent.getD 0 - w.fraction.length)

/-- A decimal that is not too large is read as a real number of the format. -/
theorem toJson_real {w : Written} (real : w.isInteger = false)
    (whole : Numeral.value 0 w.whole < 18446744073709551616) (small : w.size ≤ Binary64.safe) :
    ∃ x, w.toJson = .ok (.real x) := by
  obtain ⟨m, left, hfraction⟩ : ∃ m left, gather (Numeral.value 0 w.whole) w.fraction = (m, left) :=
    ⟨_, _, rfl⟩
  obtain ⟨short, low, -⟩ := gather_spec hfraction
  have bound : (m : ℚ) * 10 ^ ((0 : Nat) - ((w.fraction.length - left : Nat) : Int) +
      w.exponent.getD 0) ≤ Binary64.safe := by
    have low : (m : ℚ) * 10 ^ left ≤ Numeral.value 0 (w.whole ++ w.fraction) := by
      rw [Numeral.value_append]
      exact_mod_cast low
    refine le_trans ?_ small
    have split : ((0 : Nat) - ((w.fraction.length - left : Nat) : Int) + w.exponent.getD 0) =
        (left : Int) + (w.exponent.getD 0 - w.fraction.length) := by omega
    rw [size, split, zpow_add₀ (by norm_num), ← mul_assoc, zpow_natCast]
    gcongr
  have read := Binary64.isSome_scaled? fun _ => bound
  obtain ⟨x, hx⟩ := Option.isSome_iff_exists.1 read
  refine ⟨if w.negative then x.negate else x, ?_⟩
  simp only [toJson, gather_eq whole, real, Bool.false_and, Bool.false_eq_true, if_false, hfraction,
    hx]

end Written

/-! ## Printing a decimal -/

/-- A decimal as it is written in a document. -/
def written (negative : Bool) (d : Decimal) : Written :=
  let ds := Nat.toDigits 10 d.digits
  let exponent : Int := d.exponent + ds.length - 1
  if d.digits = 0 ∨ (-5 ≤ exponent ∧ exponent < 16) then
    if 0 ≤ d.exponent then
      ⟨negative, if d.digits = 0 then ['0'] else ds ++ List.replicate d.exponent.toNat '0', ['0'],
        none, false⟩
    else
      let places := (-d.exponent).toNat
      if ds.length ≤ places then
        ⟨negative, ['0'], List.replicate (places - ds.length) '0' ++ ds, none, false⟩
      else ⟨negative, ds.take (ds.length - places), ds.drop (ds.length - places), none, false⟩
  else ⟨negative, ds.take 1, ds.drop 1, some exponent, false⟩

/-- A number that stands for a decimal, and that the reader can gather. -/
structure Written.Spells (w : Written) (negative : Bool) (d : Decimal) : Prop where
  proper : w.Proper
  text : w.text = (if negative then ['-'] else []) ++ Layout.json.decimal d
  isInteger : w.isInteger = false
  size : w.size = d.size
  whole : Numeral.value 0 w.whole < 18446744073709551616

theorem value_lt_of_length {cs : List Char} (digit : ∀ c ∈ cs, Numeral.isDigit c = true)
    (short : cs.length ≤ 16) : Numeral.value 0 cs < 18446744073709551616 :=
  calc Numeral.value 0 cs < (0 + 1) * 10 ^ cs.length := Numeral.value_lt digit 0
    _ ≤ (0 + 1) * 10 ^ 16 := by gcongr; decide
    _ < 18446744073709551616 := by decide

/-- Whether a decimal is written without an exponent. -/
def positional (d : Decimal) : Prop :=
  d.digits = 0 ∨ (-5 ≤ d.exponent + (Nat.toDigits 10 d.digits).length - 1 ∧
    d.exponent + (Nat.toDigits 10 d.digits).length - 1 < 16)

theorem decimal_of_positional {d : Decimal} (h : positional d) :
    Layout.json.decimal d = Layout.positionalText true d := by
  simp only [Layout.decimal, Layout.json]
  exact if_pos h

section
variable {negative : Bool} {n k : Nat}

theorem isDigit_zeros (k : Nat) : ∀ c ∈ List.replicate k '0', Numeral.isDigit c = true := by
  intro c h
  rw [List.eq_of_mem_replicate h]
  rfl

theorem isDigit_append {cs ds : List Char} (hcs : ∀ c ∈ cs, Numeral.isDigit c = true)
    (hds : ∀ c ∈ ds, Numeral.isDigit c = true) : ∀ c ∈ cs ++ ds, Numeral.isDigit c = true := by
  intro c h
  rcases List.mem_append.1 h with h | h
  · exact hcs c h
  · exact hds c h

/-- The front of the digits opens like them. -/
theorem opens_take (n k : Nat) : ∃ c cs, (Nat.toDigits 10 n).take (k + 1) = c :: cs ∧
    (c = '0' → cs = []) := by
  obtain ⟨c, cs, hdigits, alone⟩ := Numeral.toDigits_head n
  rw [hdigits]
  exact ⟨c, cs.take k, rfl, fun h => by rw [alone h, List.take_nil]⟩

/-- Zero is written with a point, whatever its exponent. -/
theorem spells_zero : (written negative ⟨0, k⟩).Spells negative ⟨0, k⟩ := by
  have form : written negative ⟨0, k⟩ = ⟨negative, ['0'], ['0'], none, false⟩ := by
    simp [written]
  have zero : ∀ c ∈ ['0'], Numeral.isDigit c = true := isDigit_zeros 1
  rw [form]
  refine ⟨⟨zero, ⟨'0', [], rfl, fun _ => rfl⟩, zero, rfl⟩, ?_, rfl, ?_,
    value_lt_of_length zero (by simp)⟩
  · rw [decimal_of_positional (.inl rfl)]
    simp [Written.text, Written.unsignedText, exponentText, Layout.positionalText]
  · simp [Written.size, Decimal.size, Numeral.value]

/-- A whole number has zeros behind its digits, and one behind the point. -/
theorem spells_whole (pos : n ≠ 0) (h : positional ⟨n, k⟩) :
    (written negative ⟨n, k⟩).Spells negative ⟨n, k⟩ := by
  have form : written negative ⟨n, k⟩ =
      ⟨negative, Nat.toDigits 10 n ++ List.replicate k '0', ['0'], none, false⟩ := by
    unfold written
    exact (if_pos h).trans (by simp [pos])
  have digit := isDigit_append (fun _ => Numeral.isDigit_of_mem_toDigits (n := n)) (isDigit_zeros k)
  have short : (Nat.toDigits 10 n ++ List.replicate k '0').length ≤ 16 := by
    have := h.resolve_left pos
    simp only [List.length_append, List.length_replicate] at this ⊢
    omega
  obtain ⟨c, cs, hdigits, alone⟩ := Numeral.toDigits_head n
  have opens : c = '0' → cs ++ List.replicate k '0' = [] := by
    intro zero
    have value := Numeral.value_toDigits n
    rw [hdigits, alone zero, zero] at value
    exact absurd value.symm pos
  rw [form]
  refine ⟨⟨digit, ⟨c, _, by rw [hdigits]; rfl, opens⟩, isDigit_zeros 1, rfl⟩, ?_, rfl, ?_,
    value_lt_of_length digit short⟩
  · rw [decimal_of_positional h]
    simp [Written.text, Written.unsignedText, exponentText, Layout.positionalText, Layout.digits,
      pos]
  · have point : Numeral.value (n * 10 ^ k) ['0'] = n * 10 ^ k * 10 ^ 1 :=
      Numeral.value_replicate_zero _ 1
    simp only [Written.size, Decimal.size, Numeral.value_append, Numeral.value_toDigits,
      Numeral.value_replicate_zero, point]
    norm_num
    ring

/-- A number below one has zeros behind the point. -/
theorem spells_small (h : positional ⟨n, -k⟩) (pos : k ≠ 0)
    (short : (Nat.toDigits 10 n).length ≤ k) :
    (written negative ⟨n, -k⟩).Spells negative ⟨n, -k⟩ := by
  have form : written negative ⟨n, -k⟩ = ⟨negative, ['0'],
      List.replicate (k - (Nat.toDigits 10 n).length) '0' ++ Nat.toDigits 10 n, none, false⟩ := by
    unfold written
    exact (if_pos h).trans (by simp [pos, short])
  have zero : ∀ c ∈ ['0'], Numeral.isDigit c = true := isDigit_zeros 1
  have digit := isDigit_append (isDigit_zeros (k - (Nat.toDigits 10 n).length))
    (fun _ => Numeral.isDigit_of_mem_toDigits (n := n))
  rw [form]
  refine ⟨⟨zero, ⟨'0', [], rfl, fun _ => rfl⟩, digit, ?_⟩, ?_, rfl, ?_,
    value_lt_of_length zero (by simp)⟩
  · simp
  · rw [decimal_of_positional h]
    simp [Written.text, Written.unsignedText, exponentText, Layout.positionalText, Layout.digits,
      pos, short]
  · have front : Numeral.value 0 ['0'] = 0 := rfl
    simp only [Written.size, Decimal.size, Numeral.value_append, Numeral.value_toDigits,
      Numeral.value_replicate_zero, front, Nat.zero_mul, List.length_append, List.length_replicate,
      Nat.sub_add_cancel short]
    norm_num

/-- The point stands inside the digits. -/
theorem spells_split (h : positional ⟨n, -k⟩) (pos : k ≠ 0)
    (long : ¬ (Nat.toDigits 10 n).length ≤ k) :
    (written negative ⟨n, -k⟩).Spells negative ⟨n, -k⟩ := by
  have form : written negative ⟨n, -k⟩ = ⟨negative,
      (Nat.toDigits 10 n).take ((Nat.toDigits 10 n).length - k),
      (Nat.toDigits 10 n).drop ((Nat.toDigits 10 n).length - k), none, false⟩ := by
    unfold written
    exact (if_pos h).trans (by simp [pos, long])
  obtain ⟨m, hm⟩ : ∃ m, (Nat.toDigits 10 n).length - k = m + 1 :=
    ⟨(Nat.toDigits 10 n).length - k - 1, by omega⟩
  have digit : ∀ c ∈ Nat.toDigits 10 n, Numeral.isDigit c = true :=
    fun _ => Numeral.isDigit_of_mem_toDigits
  have whole : ∀ c ∈ (Nat.toDigits 10 n).take ((Nat.toDigits 10 n).length - k),
      Numeral.isDigit c = true := fun c h => digit c (List.mem_of_mem_take h)
  have fraction : ((Nat.toDigits 10 n).drop ((Nat.toDigits 10 n).length - k)).length = k := by
    rw [List.length_drop]
    omega
  have notEmpty : ¬ ((Nat.toDigits 10 n).drop ((Nat.toDigits 10 n).length - k)).isEmpty := by
    rw [List.isEmpty_iff, ← List.length_eq_zero_iff, fraction]
    exact pos
  have short : ((Nat.toDigits 10 n).take ((Nat.toDigits 10 n).length - k)).length ≤ 16 := by
    rw [List.length_take]
    rcases h with zero | ⟨-, near⟩
    · have zero : n = 0 := zero
      rw [zero] at long
      simp at long
      omega
    · dsimp only at near
      omega
  rw [form]
  refine ⟨⟨whole, by rw [hm]; exact opens_take n m,
    fun c h => digit c (List.mem_of_mem_drop h), ?_⟩, ?_, rfl, ?_, value_lt_of_length whole short⟩
  · rw [Bool.eq_false_iff.2 notEmpty, Bool.false_and]
  · rw [decimal_of_positional h]
    simp [Written.text, Written.unsignedText, exponentText, Layout.positionalText, Layout.digits,
      pos, long]
    omega
  · simp only [Written.size, Decimal.size, List.take_append_drop, Numeral.value_toDigits, fraction]
    norm_num

/-- One digit stands in front of the point, and an exponent says where it belongs. -/
theorem spells_scientific {d : Decimal} (h : ¬ positional d) :
    (written negative d).Spells negative d := by
  have form : written negative d = ⟨negative, (Nat.toDigits 10 d.digits).take 1,
      (Nat.toDigits 10 d.digits).drop 1,
      some (d.exponent + (Nat.toDigits 10 d.digits).length - 1), false⟩ := if_neg h
  have digit : ∀ c ∈ Nat.toDigits 10 d.digits, Numeral.isDigit c = true :=
    fun _ => Numeral.isDigit_of_mem_toDigits
  have whole : ∀ c ∈ (Nat.toDigits 10 d.digits).take 1, Numeral.isDigit c = true :=
    fun c h => digit c (List.mem_of_mem_take h)
  obtain ⟨c, cs, hdigits, -⟩ := Numeral.toDigits_head d.digits
  rw [form]
  refine ⟨⟨whole, opens_take d.digits 0, fun c h => digit c (List.mem_of_mem_drop h), ?_⟩, ?_, rfl,
    ?_, value_lt_of_length whole ?_⟩
  · simp
  · have scientific : Layout.json.decimal d = Layout.scientificText d
        (d.exponent + (Nat.toDigits 10 d.digits).length - 1) := by
      simp only [Layout.decimal, Layout.json]
      exact if_neg h
    rw [scientific, Layout.scientificText, Layout.digits, Layout.digits, hdigits]
    cases cs <;> simp [Written.text, Written.unsignedText, exponentText]
  · simp only [Written.size, Decimal.size, List.take_append_drop, Numeral.value_toDigits,
      Option.getD_some, List.length_drop]
    congr 2
    rw [hdigits, List.length_cons]
    omega
  · rw [List.length_take]
    omega

end

/-- **The layout of documents writes decimals as the reader wants them**, whatever form it takes. -/
theorem spells_written (negative : Bool) (d : Decimal) :
    (written negative d).Spells negative d := by
  by_cases h : positional d
  · obtain ⟨n, exponent⟩ := d
    rcases Int.le_total 0 exponent with nonneg | nonpos
    · obtain ⟨k, rfl⟩ := Int.eq_ofNat_of_zero_le nonneg
      by_cases zero : n = 0
      · subst zero
        exact spells_zero
      · exact spells_whole zero h
    · obtain ⟨k, hk⟩ := Int.eq_ofNat_of_zero_le (show 0 ≤ -exponent by omega)
      obtain rfl : exponent = -(k : Int) := by omega
      by_cases none : k = 0
      · subst none
        by_cases zero : n = 0
        · subst zero
          exact spells_zero
        · exact spells_whole zero h
      · by_cases short : (Nat.toDigits 10 n).length ≤ k
        · exact spells_small h none short
        · exact spells_split h none short
  · exact spells_scientific h

/-! ## Real numbers -/

/-- Whether a number has been read as a real one. -/
def isReal : Except Fault Json → Bool
  | .ok (.real _) => true
  | _ => false

theorem isReal_iff {r : Except Fault Json} : isReal r = true ↔ ∃ x, r = .ok (.real x) := by
  constructor
  · intro h
    cases r with
    | error f => cases h
    | ok v => cases v <;> first | exact ⟨_, rfl⟩ | cases h
  · rintro ⟨x, rfl⟩
    rfl

theorem toJson_written (negative : Bool) {m : Nat} {e : Int} (bits : m < 2 ^ 53)
    (range : e ≤ 971) : ∃ x, (written negative (Decimal.shortest m e)).toJson = .ok (.real x) := by
  by_cases top : e = 971 ∧ 2 ^ 53 - 2 ≤ m
  · -- The two greatest numbers come so close to the limit that they are tried one by one.
    obtain ⟨rfl, high⟩ := top
    rw [← isReal_iff]
    obtain rfl | rfl : m = 9007199254740990 ∨ m = 9007199254740991 := by omega
    all_goals cases negative <;> decide +kernel
  · have spells := spells_written negative (Decimal.shortest m e)
    refine Written.toJson_real spells.isInteger spells.whole ?_
    rw [spells.size]
    refine (Decimal.size_shortest_le m e).trans ?_
    rw [not_and_or] at top
    rcases top with lower | smaller
    · have low : (m : ℚ) + 1 / 2 ≤ 2 ^ 53 - 1 / 2 := by
        have : (m : ℚ) + 1 ≤ 2 ^ 53 := by exact_mod_cast bits
        linarith
      calc ((m : ℚ) + 1 / 2) * 2 ^ e ≤ (2 ^ 53 - 1 / 2) * 2 ^ (970 : ℤ) := by
            gcongr
            · norm_num
            · omega
        _ ≤ (2 ^ 53 - 5 / 2) * 2 * 2 ^ (970 : ℤ) := by gcongr; norm_num
        _ = Binary64.safe := by
            rw [Binary64.safe, show (971 : ℤ) = 970 + 1 by norm_num, zpow_add₀ two_ne_zero]
            ring
    · have low : (m : ℚ) + 1 / 2 ≤ 2 ^ 53 - 5 / 2 := by
        have : m + 3 ≤ 2 ^ 53 := by omega
        have : (m : ℚ) + 3 ≤ 2 ^ 53 := by exact_mod_cast this
        linarith
      rw [Binary64.safe]
      gcongr
      norm_num

/-- The text of a real number is that of a decimal. -/
theorem text_real {negative : Bool} {m : Nat} {e : Int} :
    (Layout.json.text (.finite negative m e)).toList =
      (written negative (Decimal.shortest m e)).text := by
  rw [(spells_written negative (Decimal.shortest m e)).text]
  exact String.toList_ofList

theorem opens_text_real {x : Binary64} (h : x.Ordinary) :
    ∃ c cs, (Layout.json.text x).toList = c :: cs ∧ opensNumber c = true := by
  obtain ⟨negative, m, e, rfl, -⟩ := Binary64.exists_finite h
  rw [text_real]
  exact (spells_written negative (Decimal.shortest m e)).proper.exists_opens

/-- **A real number of the format is read as some real number**, whatever stands behind it. -/
theorem reads_text_real {x : Binary64} (h : x.Ordinary) :
    ∃ y, Reads scalar (Layout.json.text x).toList (some (.real y)) := by
  obtain ⟨negative, m, e, rfl, -⟩ := Binary64.exists_finite h
  obtain ⟨y, hy⟩ := toJson_written negative h.1 h.2
  rw [text_real]
  exact ⟨y, .of_ok fun rest stop => scalar_text (spells_written _ _).proper hy stop⟩

end JobPipeline.Json
