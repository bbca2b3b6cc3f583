import JobPipeline.Json.Printer
import JobPipeline.Json.Reader
import JobPipeline.Proofs.Number.Numeral

/-!
# Strings and integers are read as they were printed

A printed text is read in front of anything that may come after it. A string has an end of its own
(`stringBody_printed`). A number ends where something comes that is not part of a number, which
`stops` says (`number_text`).
-/

namespace JobPipeline.Json

open Utf8 (Symbol)

/-- The symbols of a text that is printed. -/
def printed (cs : List Char) : List Symbol := cs.map .char

@[simp] theorem printed_nil : printed [] = [] := rfl

@[simp] theorem printed_cons (c : Char) (cs : List Char) :
    printed (c :: cs) = .char c :: printed cs := rfl

@[simp] theorem printed_append (cs ds : List Char) :
    printed (cs ++ ds) = printed cs ++ printed ds :=
  List.map_append

@[simp] theorem length_printed (cs : List Char) : (printed cs).length = cs.length :=
  List.length_map _

/-! ## Strings -/

theorem hexDigit?_hexDigit {n : Nat} (h : n < 16) : Percent.hexDigit? (hexDigit n) = some n := by
  interval_cases n <;> decide

/-- An escaped control character, from behind its backslash. -/
theorem stringFrom_control {c : Char} (control : c.toNat < 0x20) (acc : List Char)
    (rest : List Symbol) :
    stringFrom .begun acc (printed ['u', '0', '0', hexDigit (c.toNat / 16),
      hexDigit (c.toNat % 16)] ++ rest) = stringFrom .none (c :: acc) rest := by
  have high := hexDigit?_hexDigit (show c.toNat / 16 < 16 by omega)
  have low := hexDigit?_hexDigit (show c.toNat % 16 < 16 by omega)
  have zero : Percent.hexDigit? '0' = some 0 := by decide
  have whole : c.toNat / 16 * 16 + c.toNat % 16 = c.toNat := by omega
  simp only [printed_cons, printed_nil, List.cons_append, List.nil_append, stringFrom, if_true,
    zero, high, low, Nat.zero_mul, Nat.zero_add, whole, Char.ofNat_toNat]
  rw [if_pos (by omega)]

/-- The characters a backslash stands in front of. -/
theorem stringFrom_short {c d : Char} (short : shortEscape? d = some c) (notU : d ≠ 'u')
    (acc : List Char) (rest : List Symbol) :
    stringFrom .none acc (printed ['\\', d] ++ rest) = stringFrom .none (c :: acc) rest := by
  have other : ¬ ('\\' : Char) = '"' := by decide
  simp only [printed_cons, printed_nil, List.cons_append, List.nil_append, stringFrom, other,
    if_false, if_true, notU, short]

theorem stringFrom_escape (c : Char) (acc : List Char) (rest : List Symbol) :
    stringFrom .none acc (printed (escape c) ++ rest) = stringFrom .none (c :: acc) rest := by
  have named {n : Nat} (h : c.toNat = n) : c = Char.ofNat n := by rw [← h, Char.ofNat_toNat]
  unfold escape
  split_ifs with quote backslash b t n f r control
  · subst quote; exact stringFrom_short (by decide) (by decide) acc rest
  · subst backslash; exact stringFrom_short (by decide) (by decide) acc rest
  · rw [named b]; exact stringFrom_short (by decide) (by decide) acc rest
  · rw [named t]; exact stringFrom_short (by decide) (by decide) acc rest
  · rw [named n]; exact stringFrom_short (by decide) (by decide) acc rest
  · rw [named f]; exact stringFrom_short (by decide) (by decide) acc rest
  · rw [named r]; exact stringFrom_short (by decide) (by decide) acc rest
  · have other : ¬ ('\\' : Char) = '"' := by decide
    rw [← stringFrom_control control acc rest]
    simp only [printed_cons, List.cons_append, stringFrom.eq_3, other, if_false, if_true]
  · simp [stringFrom, quote, backslash, control]

theorem stringFrom_printed (cs acc : List Char) (rest : List Symbol) :
    stringFrom .none acc (printed (cs.flatMap escape ++ ['"']) ++ rest) =
      .ok (String.ofList (acc.reverse ++ cs), rest) := by
  induction cs generalizing acc with
  | nil => simp [stringFrom]
  | cons c cs ih =>
    have next := ih (c :: acc)
    rw [List.reverse_cons, List.append_assoc, List.singleton_append] at next
    rw [← next, ← stringFrom_escape c acc]
    simp only [List.flatMap_cons, List.append_assoc, printed_append]

/-- A printed string is read from behind its opening quote. -/
theorem stringBody_printed (s : String) (rest : List Symbol) :
    stringBody (printed (s.toList.flatMap escape ++ ['"']) ++ rest) = .ok (s, rest) := by
  rw [stringBody, stringFrom_printed, List.reverse_nil, List.nil_append, String.ofList_toList]

theorem scalar_printString (s : String) (rest : List Symbol) :
    scalar (printed (printString s) ++ rest) = .ok (.string s, rest) := by
  have body := stringBody_printed s rest
  simp only [printString, printed_cons, List.cons_append, scalar, body, Except.map]

/-! ## Where a number ends -/

/-- Whether a number that stands in front of the symbols ends there. -/
def stops : List Symbol → Bool
  | .char c :: _ => !(Numeral.isDigit c || c == '.' || c == 'e' || c == 'E')
  | _ => true

@[simp] theorem stops_nil : stops [] = true := rfl

theorem digits_printed {cs : List Char} (digit : ∀ c ∈ cs, Numeral.isDigit c = true)
    {rest : List Symbol} (stop : ∀ c more, rest = .char c :: more → Numeral.isDigit c = false) :
    digits (printed cs ++ rest) = (cs, rest) := by
  induction cs with
  | nil =>
    cases rest with
    | nil => rfl
    | cons symbol more =>
      cases symbol with
      | broken => rfl
      | char c => simp [digits, stop c more rfl]
  | cons c cs ih =>
    have first := digit c List.mem_cons_self
    have others := ih fun d hd => digit d (List.mem_cons_of_mem c hd)
    simp only [printed_cons, List.cons_append, digits, first, if_true, others]

theorem isDigit_of_stops {rest : List Symbol} (stop : stops rest = true) (c : Char)
    (more : List Symbol) (h : rest = .char c :: more) : Numeral.isDigit c = false := by
  subst h
  simp only [stops, Bool.not_eq_true', Bool.or_eq_false_iff] at stop
  exact stop.1.1.1

theorem exponent_of_stops {rest : List Symbol} (stop : stops rest = true) :
    exponent rest = .ok (none, rest) := by
  cases rest with
  | nil => rfl
  | cons symbol more =>
    cases symbol with
    | broken => rfl
    | char c =>
      simp only [stops, Bool.not_eq_true', Bool.or_eq_false_iff, beq_eq_false_iff_ne] at stop
      simp [exponent, stop.1.2, stop.2]

/-! ## Numbers as they are written -/

/-- The text of an exponent. -/
def exponentText : Option Int → List Char
  | none => []
  | some e => 'e' :: (if e < 0 then '-' else '+') :: Nat.toDigits 10 e.natAbs

namespace Written

/-- The text of a number without its sign. -/
def unsignedText (w : Written) : List Char :=
  w.whole ++ ((if w.fraction.isEmpty then [] else '.' :: w.fraction) ++ exponentText w.exponent)

def text (w : Written) : List Char := (if w.negative then ['-'] else []) ++ w.unsignedText

/-- The number is written as the grammar has it. -/
structure Proper (w : Written) : Prop where
  whole : ∀ c ∈ w.whole, Numeral.isDigit c = true
  opens : ∃ c cs, w.whole = c :: cs ∧ (c = '0' → cs = [])
  fraction : ∀ c ∈ w.fraction, Numeral.isDigit c = true
  isInteger : w.isInteger = (w.fraction.isEmpty && w.exponent.isNone)

end Written

theorem exponent_text (e : Option Int) {rest : List Symbol} (stop : stops rest = true) :
    exponent (printed (exponentText e) ++ rest) = .ok (e, rest) := by
  cases e with
  | none => exact exponent_of_stops stop
  | some e =>
    have whole := digits_printed (fun _ => Numeral.isDigit_of_mem_toDigits (n := e.natAbs))
      (isDigit_of_stops stop)
    obtain ⟨c, cs, hdigits, -⟩ := Numeral.toDigits_head e.natAbs
    have value : Numeral.value 0 (c :: cs) = e.natAbs := by rw [← hdigits, Numeral.value_toDigits]
    rw [hdigits] at whole
    by_cases negative : e < 0
    · simp only [exponentText, negative, if_true, hdigits, printed_cons, List.cons_append, exponent,
        true_or] at whole ⊢
      simp only [whole, value]
      congr 3
      omega
    · simp only [exponentText, negative, if_false, hdigits, printed_cons, List.cons_append,
        exponent, true_or, if_true] at whole ⊢
      simp only [whole, value]
      congr 3
      omega

theorem unsignedNumber_text {w : Written} (proper : w.Proper) {rest : List Symbol}
    (stop : stops rest = true) :
    unsignedNumber w.negative (printed w.unsignedText ++ rest) = .ok (w, rest) := by
  obtain ⟨negative, whole, fraction, e, isInteger⟩ := w
  obtain ⟨hwhole, ⟨c, cs, rfl, alone⟩, hfraction, hinteger⟩ := proper
  dsimp only at hwhole hfraction hinteger
  subst hinteger
  have after := exponent_text e stop
  -- No digit stands behind the digits, be it in front of the point or behind it.
  have quiet : ∀ d more, printed (exponentText e) ++ rest = .char d :: more →
      Numeral.isDigit d = false := by
    cases e with
    | none => exact isDigit_of_stops stop
    | some e => rintro d more h; cases h; rfl
  obtain ⟨tail, htail⟩ : ∃ tail, tail =
      printed ((if fraction.isEmpty then [] else '.' :: fraction) ++ exponentText e) ++ rest :=
    ⟨_, rfl⟩
  have first : digits (printed (c :: cs) ++ tail) = (c :: cs, tail) := by
    refine digits_printed hwhole fun d more h => ?_
    cases fraction with
    | nil => exact quiet d more (by simpa [htail] using h)
    | cons f fs => simp [htail] at h; rw [← h.1]; rfl
  have input : printed (Written.unsignedText ⟨negative, c :: cs, fraction, e,
      fraction.isEmpty && e.isNone⟩) ++ rest = printed (c :: cs) ++ tail := by
    simp [Written.unsignedText, htail]
  rw [input]
  unfold unsignedNumber
  rw [first]
  split
  · rename_i h; cases h
  · rename_i h; cases h; cases alone rfl
  · rename_i h
    cases h
    cases fraction with
    | nil =>
      have noPoint (more : List Symbol) : tail ≠ .char '.' :: more := by
        rintro h
        cases e with
        | none =>
          rw [htail] at h
          simp [exponentText] at h
          rw [h] at stop
          cases stop
        | some e => rw [htail] at h; cases h
      split
      · exact absurd rfl (noPoint _)
      · rw [htail]
        simp only [List.isEmpty_nil, if_true, List.nil_append, after]
    | cons f fs =>
      have second := digits_printed hfraction quiet
      simp only [printed_cons, List.cons_append] at second
      rw [htail]
      simp [second, after]

theorem number_text {w : Written} (proper : w.Proper) {rest : List Symbol}
    (stop : stops rest = true) : number (printed w.text ++ rest) = .ok (w, rest) := by
  have unsigned := unsignedNumber_text proper stop
  obtain ⟨c, cs, hwhole, -⟩ := proper.opens
  have digit := proper.whole c (hwhole ▸ List.mem_cons_self)
  cases negative : w.negative with
  | true =>
    rw [negative] at unsigned
    simp only [Written.text, negative, if_true, printed_cons, List.cons_append, List.nil_append,
      number, unsigned]
  | false =>
    rw [negative] at unsigned
    rw [Written.text, negative, if_neg (by decide), List.nil_append, ← unsigned]
    rw [Written.unsignedText, hwhole, List.cons_append, printed_cons, List.cons_append, number]
    rintro rest' h
    cases h
    exact absurd digit (by decide)

/-! ## Integers -/

theorem gather_eq {n : Nat} {cs : List Char} (h : Numeral.value n cs < 18446744073709551616) :
    gather n cs = (Numeral.value n cs, 0) := by
  induction cs generalizing n with
  | nil => rfl
  | cons c cs ih =>
    have step : Numeral.value n (c :: cs) = Numeral.value (n * 10 + (c.toNat - '0'.toNat)) cs := rfl
    rw [step] at h ⊢
    have fits := Nat.lt_of_le_of_lt (Numeral.le_value _ cs) h
    rw [gather]
    simp only [if_pos fits, ih h]

/-- An integer as it is written. -/
def writtenInt (n : Int) : Written := ⟨decide (n < 0), Nat.toDigits 10 n.natAbs, [], none, true⟩

theorem proper_writtenInt (n : Int) : (writtenInt n).Proper :=
  ⟨fun _ => Numeral.isDigit_of_mem_toDigits, Numeral.toDigits_head _, nofun, rfl⟩

theorem text_writtenInt (n : Int) : (writtenInt n).text = printInt n := by
  by_cases negative : n < 0 <;>
    simp [writtenInt, printInt, Written.text, Written.unsignedText, exponentText, negative]

theorem toJson_writtenInt (n : Integer) : (writtenInt n.val).toJson = .ok (.integer n) := by
  obtain ⟨n, low, high⟩ := n
  have gathered : gather 0 (Nat.toDigits 10 n.natAbs) = (n.natAbs, 0) := by
    rw [gather_eq] <;> rw [Numeral.value_toDigits]
    omega
  by_cases negative : n < 0
  · have range : 0 < n.natAbs ∧ n.natAbs ≤ 9223372036854775808 := by omega
    have value : -(n.natAbs : Int) = n := by omega
    simp only [writtenInt, Written.toJson, negative, decide_true, gathered, beq_self_eq_true,
      Bool.and_self, if_true, range, and_self, dite_true, value]
  · have range : n.natAbs < 18446744073709551616 := by omega
    have value : (n.natAbs : Int) = n := by omega
    simp only [writtenInt, Written.toJson, negative, decide_false, gathered, beq_self_eq_true,
      Bool.and_self, if_true, Bool.false_eq_true, if_false, range, dite_true, ofNat, value]

/-- The characters a number begins with. -/
def opensNumber (c : Char) : Bool := c == '-' || Numeral.isDigit c

theorem Written.Proper.exists_opens {w : Written} (proper : w.Proper) :
    ∃ c cs, w.text = c :: cs ∧ opensNumber c = true := by
  obtain ⟨c, cs, hwhole, -⟩ := proper.opens
  have digit := proper.whole c (hwhole ▸ List.mem_cons_self)
  cases negative : w.negative with
  | true => exact ⟨'-', w.unsignedText, by simp [text, negative], rfl⟩
  | false =>
    have front : w.text = c :: (cs ++ w.unsignedText.drop w.whole.length) := by
      simp [text, negative, unsignedText, hwhole]
    exact ⟨c, _, front, by simp [opensNumber, digit]⟩

theorem scalar_of_opensNumber {c : Char} (opens : opensNumber c = true) (rest : List Symbol) :
    scalar (.char c :: rest) = numberValue (.char c :: rest) := by
  have ne {d : Char} (h : opensNumber d = false) : c ≠ d := by
    rintro rfl; rw [h] at opens; cases opens
  rw [scalar]
  · simp only [opensNumber, Bool.or_eq_true, beq_iff_eq] at opens
    rw [if_pos opens]
  all_goals exact ne (by decide)

/-- A number is read as what its digits come to. -/
theorem scalar_text {w : Written} (proper : w.Proper) {v : Json} (value : w.toJson = .ok v)
    {rest : List Symbol} (stop : stops rest = true) :
    scalar (printed w.text ++ rest) = .ok (v, rest) := by
  have read := number_text proper stop
  obtain ⟨c, cs, heq, opens⟩ := proper.exists_opens
  rw [heq, printed_cons, List.cons_append] at read ⊢
  simp only [scalar_of_opensNumber opens, numberValue, read, value]

theorem scalar_printInt (n : Integer) {rest : List Symbol} (stop : stops rest = true) :
    scalar (printed (printInt n.val) ++ rest) = .ok (.integer n, rest) := by
  rw [← text_writtenInt]
  exact scalar_text (proper_writtenInt n.val) (toJson_writtenInt n) stop

end JobPipeline.Json
