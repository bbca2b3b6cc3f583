import JobPipeline.Proofs.Number.Numeral
import JobPipeline.Proofs.Time.Calendar
import JobPipeline.Time.Rfc3339

/-!
# Timestamps survive their texts

Every instant that a timestamp can name (`Instant.Nameable`) is read back from its text
(`parse?_print`). Each number of the text is read to its last digit, because none of the characters
behind a number is one.
-/

namespace JobPipeline

/-- The instants that timestamps name: within the years that there are, a leap second only at the
end of a minute. -/
structure Instant.Nameable (t : Instant) : Prop where
  range : Rfc3339.inRange t = true
  nanos : t.nanos < 1000000000 ∨ (t.nanos < 2000000000 ∧ t.seconds % 60 = 59)

theorem isBlank_of_isDigit {c : Char} (h : Numeral.isDigit c = true) : isBlank c = false := by
  simp only [Numeral.isDigit, Bool.and_eq_true, decide_eq_true_eq] at h
  have low : '0'.toNat ≤ c.toNat := h.1
  have high : c.toNat ≤ '9'.toNat := h.2
  have : '0'.toNat = 48 := rfl
  have : '9'.toNat = 57 := rfl
  simp [isBlank]
  omega

theorem trimStart_cons {c : Char} (h : isBlank c = false) (cs : List Char) :
    trimStart (c :: cs) = c :: cs := by
  simp [trimStart, h]

namespace Rfc3339

open Calendar

variable {w n lo hi : Nat} {c : Char} {cs : List Char}

/-! ## Padded numbers -/

theorem isDigit_of_mem_padded {d : Char} (h : d ∈ padded w n) : Numeral.isDigit d = true := by
  rcases List.mem_append.1 h with h | h
  · rw [List.eq_of_mem_replicate h]
    decide
  · exact Numeral.isDigit_of_mem_toDigits h

theorem value_padded (w n : Nat) : Numeral.value 0 (padded w n) = n := by
  rw [padded, Numeral.value_append, Numeral.value_replicate_zero, Nat.zero_mul,
    Numeral.value_toDigits]

theorem padded_ne_nil (w n : Nat) : padded w n ≠ [] := by
  simp [padded, Nat.toDigits_ne_nil]

theorem length_padded (wide : 0 < w) (h : n < 10 ^ w) : (padded w n).length = w := by
  have := (Nat.length_toDigits_le_iff (b := 10) (by decide) wide).2 h
  rw [padded, List.length_append, List.length_replicate]
  omega

theorem trimStart_padded (w n : Nat) (cs : List Char) :
    trimStart (padded w n ++ cs) = padded w n ++ cs := by
  obtain ⟨d, ds, hd⟩ := List.exists_cons_of_ne_nil (padded_ne_nil w n)
  have digit : Numeral.isDigit d = true :=
    isDigit_of_mem_padded (w := w) (n := n) (hd ▸ List.mem_cons_self)
  rw [hd, List.cons_append, trimStart_cons (isBlank_of_isDigit digit)]

theorem takeWhile_padded (w n : Nat) (other : Numeral.isDigit c = false) (cs : List Char) :
    (padded w n ++ c :: cs).takeWhile Numeral.isDigit = padded w n := by
  rw [List.takeWhile_append_of_pos fun d hd => isDigit_of_mem_padded hd,
    List.takeWhile_cons_of_neg (by simp [other]), List.append_nil]

/-- A number is read to its end, if there is room for its digits. -/
theorem number?_padded {width : Nat} (room : (padded w n).length ≤ width)
    (other : Numeral.isDigit c = false) :
    number? width (padded w n ++ c :: cs) = some (n, c :: cs) := by
  have digits : ((padded w n ++ c :: cs).take width).takeWhile Numeral.isDigit = padded w n := by
    obtain ⟨more, rfl⟩ := Nat.exists_eq_add_of_le room
    rw [List.take_length_add_append]
    cases more with
    | zero =>
      rw [List.take_zero, List.append_nil]
      exact List.takeWhile_eq_self_iff.2 fun d hd => isDigit_of_mem_padded hd
    | succ more =>
      rw [List.take_succ_cons]
      exact takeWhile_padded w n other _
  simp only [number?, digits, List.isEmpty_iff, if_neg (padded_ne_nil w n), value_padded,
    List.drop_left]

theorem field?_padded (low : lo ≤ n) (high : n ≤ hi) (two : hi < 100)
    (other : Numeral.isDigit c = false) :
    field? lo hi (padded 2 n ++ c :: cs) = some (n, c :: cs) := by
  have room := (length_padded (w := 2) (n := n) (by decide) (by omega)).le
  rw [field?, trimStart_padded, number?_padded room other]
  simp [low, high]

theorem separator?_cons (h : isBlank c = false) : separator? c (c :: cs) = some cs := by
  rw [separator?, trimStart_cons h]
  exact if_pos rfl

/-! ## The parts of a timestamp -/

theorem year?_printYear (y : Int) (cs : List Char) :
    year? (printYear y ++ '-' :: cs) = some (y, '-' :: cs) := by
  have signed (n : Nat) : number? (padded 4 n ++ '-' :: cs).length (padded 4 n ++ '-' :: cs) =
      some (n, '-' :: cs) :=
    number?_padded (by simp) (by decide)
  rw [year?, printYear]
  by_cases short : 0 ≤ y ∧ y ≤ 9999
  · have room := (length_padded (w := 4) (n := y.toNat) (by decide) (by omega)).le
    have number : number? 4 (padded 4 y.toNat ++ '-' :: cs) = some (y.toNat, '-' :: cs) :=
      number?_padded room (by decide)
    rw [if_pos short, trimStart_padded]
    obtain ⟨d, ds, hd⟩ := List.exists_cons_of_ne_nil (padded_ne_nil 4 y.toNat)
    have digit : Numeral.isDigit d = true :=
      isDigit_of_mem_padded (w := 4) (n := y.toNat) (hd ▸ List.mem_cons_self)
    split
    · rename_i h
      rw [hd] at h
      cases h
      cases digit
    · rename_i h
      rw [hd] at h
      cases h
      cases digit
    · rw [number]
      simp [short.1]
  · rw [if_neg short]
    by_cases negative : y < 0
    · rw [if_pos negative, List.cons_append, trimStart_cons (by decide)]
      simp only [signed, Option.map_some]
      congr 2
      omega
    · rw [if_neg negative, List.cons_append, trimStart_cons (by decide)]
      simp only [signed, Option.map_some]
      congr 2
      omega

/-- Some digits behind a point are so many parts of a second. -/
theorem fraction?_padded (wide : 0 < w) (short : w ≤ 9) (h : n < 10 ^ w) :
    fraction? ('.' :: (padded w n ++ 'Z' :: cs)) = some (n * 10 ^ (9 - w), 'Z' :: cs) := by
  have length := length_padded wide h
  have kept : (padded w n).take 9 = padded w n := List.take_of_length_le (by omega)
  simp only [fraction?, takeWhile_padded w n (show Numeral.isDigit 'Z' = false by decide),
    List.isEmpty_iff, if_neg (padded_ne_nil w n), kept, value_padded, length, Nat.pow_eq]
  rw [List.drop_left' length]

theorem fraction?_printFraction (h : n < 1000000000) (cs : List Char) :
    fraction? (printFraction n ++ 'Z' :: cs) = some (n, 'Z' :: cs) := by
  rw [printFraction]
  split_ifs with zero millis micros
  · rw [zero]
    rfl
  · rw [List.cons_append, fraction?_padded (by decide) (by decide) (by omega)]
    congr 2
    omega
  · rw [List.cons_append, fraction?_padded (by decide) (by decide) (by omega)]
    congr 2
    omega
  · rw [List.cons_append, fraction?_padded (by decide) (by decide) (by omega)]
    congr 2
    omega

/-- Behind the seconds comes the fraction or the end, but no digit. -/
theorem opens_printFraction (n : Nat) :
    ∃ c cs, printFraction n ++ ['Z'] = c :: cs ∧ Numeral.isDigit c = false := by
  rw [printFraction]
  split_ifs <;> exact ⟨_, _, rfl, by decide⟩

/-- A timestamp in UTC is what its parts make. -/
theorem parse?_of_parts {s : String} {year : Int} {month day hour minute second nanos : Nat}
    {y m d h mi se : List Char} (hyear : year? s.toList = some (year, '-' :: y))
    (hmonth : field? 1 12 y = some (month, '-' :: m)) (hday : field? 1 31 m = some (day, 'T' :: d))
    (hhour : field? 0 23 d = some (hour, ':' :: h))
    (hminute : field? 0 59 h = some (minute, ':' :: mi))
    (hsecond : field? 0 60 mi = some (second, se)) (hnanos : fraction? se = some (nanos, ['Z']))
    (valid : (⟨year, month, day⟩ : Date).valid = true) {t : Instant}
    (ht : t = ⟨daysFrom ⟨year, month, day⟩ * 86400 +
      (hour * 3600 + minute * 60 + (if second = 60 then 59 else second) : Nat),
      if second = 60 then nanos + 1000000000 else nanos⟩)
    (range : inRange t = true) : parse? s = some t := by
  have dash (cs : List Char) : separator? '-' ('-' :: cs) = some cs := separator?_cons (by decide)
  have colon (cs : List Char) : separator? ':' (':' :: cs) = some cs := separator?_cons (by decide)
  have offset : offset? (trimStart ['Z']) = some (0, []) := by decide
  -- One reader after the other takes what the one before has left.
  refine Option.bind_eq_some_iff.2 ⟨_, hyear, Option.bind_eq_some_iff.2 ⟨_, dash y, ?_⟩⟩
  refine Option.bind_eq_some_iff.2 ⟨_, hmonth, Option.bind_eq_some_iff.2 ⟨_, dash m, ?_⟩⟩
  refine Option.bind_eq_some_iff.2 ⟨_, hday, Option.bind_eq_some_iff.2 ⟨_, rfl, ?_⟩⟩
  refine Option.bind_eq_some_iff.2 ⟨_, hhour, Option.bind_eq_some_iff.2 ⟨_, colon h, ?_⟩⟩
  refine Option.bind_eq_some_iff.2 ⟨_, hminute, Option.bind_eq_some_iff.2 ⟨_, colon mi, ?_⟩⟩
  refine Option.bind_eq_some_iff.2 ⟨_, hsecond, Option.bind_eq_some_iff.2 ⟨_, hnanos, ?_⟩⟩
  refine Option.bind_eq_some_iff.2 ⟨_, offset, ?_⟩
  dsimp only
  rw [if_neg (by decide)]
  simp only [Int.sub_zero, ← ht, valid, range, Bool.and_self, if_true]

/-- **An instant is read back from its text.** -/
theorem parse?_print {t : Instant} (h : t.Nameable) : parse? (print t) = some t := by
  obtain ⟨range, within⟩ := h
  obtain ⟨day, hday⟩ : ∃ d, d = t.seconds / 86400 := ⟨_, rfl⟩
  obtain ⟨second, hsecond⟩ : ∃ s, s = (t.seconds % 86400).toNat := ⟨_, rfl⟩
  obtain ⟨date, hdate⟩ : ∃ d, d = civil day := ⟨_, rfl⟩
  obtain ⟨leap, hleap⟩ : ∃ n, n = if 1000000000 ≤ t.nanos then 1 else 0 := ⟨_, rfl⟩
  obtain ⟨nanos, hnanos⟩ :
      ∃ n, n = if 1000000000 ≤ t.nanos then t.nanos - 1000000000 else t.nanos := ⟨_, rfl⟩
  have text : (print t).toList =
      printYear date.year ++ '-' :: (padded 2 date.month ++ '-' :: (padded 2 date.day ++
        'T' :: (padded 2 (second / 3600) ++ ':' :: (padded 2 (second / 60 % 60) ++
        ':' :: (padded 2 (second % 60 + leap) ++ (printFraction nanos ++ ['Z'])))))) := by
    rw [print, String.toList_ofList, printChars, Instant.dayAndSecond, ← hday, ← hsecond]
    simp only [← hdate, ← hleap, ← hnanos, List.append_assoc, List.cons_append]
  have valid : date.valid = true := hdate ▸ valid_civil day
  have number : daysFrom date = day := hdate ▸ daysFrom_civil day
  have parts := valid
  have month := daysInMonth_le date.year date.month
  simp only [Date.valid, Bool.and_eq_true, decide_eq_true_eq] at parts
  obtain ⟨c, cs, hfraction, other⟩ := opens_printFraction nanos
  have hour : second / 3600 ≤ 23 := by omega
  have minute : second / 60 % 60 ≤ 59 := by omega
  have full : second % 60 + leap ≤ 60 := by split_ifs at hleap <;> omega
  have fraction := fraction?_printFraction
    (show nanos < 1000000000 by split_ifs at hnanos <;> omega) []
  have sixty : field? 0 60 (padded 2 (second % 60 + leap) ++ c :: cs) =
      some (second % 60 + leap, c :: cs) := field?_padded (Nat.zero_le _) full (by decide) other
  rw [← hfraction] at sixty
  refine parse?_of_parts (by rw [text]; exact year?_printYear _ _)
    (field?_padded parts.1.1.1 parts.1.1.2 (by decide) (by decide))
    (field?_padded parts.1.2 (parts.2.trans month) (by decide) (by decide))
    (field?_padded (Nat.zero_le _) hour (by decide) (by decide))
    (field?_padded (Nat.zero_le _) minute (by decide) (by decide))
    sixty fraction valid ?_ range
  obtain ⟨seconds, count⟩ := t
  dsimp only at *
  rw [Instant.mk.injEq, number]
  by_cases late : 1000000000 ≤ count
  · rw [if_pos late] at hleap hnanos
    have last : second % 60 + leap = 60 := by omega
    rw [if_pos last, if_pos last]
    omega
  · rw [if_neg late] at hleap hnanos
    have other : second % 60 + leap ≠ 60 := by omega
    rw [if_neg other, if_neg other]
    omega

end Rfc3339
end JobPipeline
