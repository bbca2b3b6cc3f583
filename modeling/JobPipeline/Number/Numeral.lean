import JobPipeline.Number.Binary64

/-!
# Numerals in plain text

Readers for whole texts, as configuration values need them: signed and unsigned integers of a given
range, and decimal numbers with an optional fraction and exponent. A reader takes the whole text or
refuses it; there is no surrounding space, no digit grouping, and only the ASCII digits count.
-/

namespace JobPipeline.Numeral

def isDigit (c : Char) : Bool := '0' ≤ c && c ≤ '9'

/-- The number that ASCII digits spell, continuing from `n`. -/
def value (n : Nat) (cs : List Char) : Nat := cs.foldl (fun n c => n * 10 + (c.toNat - '0'.toNat)) n

/-- The number spelled by a nonempty list of digits. -/
def nat? (cs : List Char) : Option Nat :=
  if cs.isEmpty || !cs.all isDigit then none else some (value 0 cs)

/-- An unsigned integer below `2 ^ bits`; a plus sign may stand in front. -/
def unsigned? (bits : Nat) (s : String) : Option Nat :=
  let digits := match s.toList with
    | '+' :: rest => rest
    | cs => cs
  (nat? digits).filter (· < Nat.pow 2 bits)

/-- A signed integer of 64 bits; either sign may stand in front. -/
def int64? (s : String) : Option Int :=
  let read (sign : Int) (cs : List Char) : Option Int := (nat? cs).map (sign * ·)
  let n? := match s.toList with
    | '+' :: rest => read 1 rest
    | '-' :: rest => read (-1) rest
    | cs => read 1 cs
  n?.filter fun n => -9223372036854775808 ≤ n ∧ n < 9223372036854775808

/-- An exponent after `e`: an optional sign and at least one digit. -/
def exponent? : List Char → Option Int
  | '+' :: rest => (nat? rest).map Int.ofNat
  | '-' :: rest => (nat? rest).map fun n => -(n : Int)
  | cs => (nat? cs).map Int.ofNat

/-- The unsigned part of a decimal number: digits on at least one side of an optional point, then an
optional exponent. The nearest binary64 number is the value. -/
def magnitude? (negative : Bool) (cs : List Char) : Option Binary64 :=
  let whole := cs.takeWhile isDigit
  let rest := cs.dropWhile isDigit
  let (fraction, rest) := match rest with
    | '.' :: rest => (rest.takeWhile isDigit, rest.dropWhile isDigit)
    | rest => ([], rest)
  let number (exponent : Int) : Option Binary64 :=
    if whole.isEmpty && fraction.isEmpty then none
    else
      some (Binary64.ofDecimal negative (value (value 0 whole) fraction)
        (exponent - fraction.length))
  match rest with
  | [] => number 0
  | c :: rest => if c = 'e' ∨ c = 'E' then (exponent? rest).bind number else none

/-- A text with its ASCII capitals lowered. -/
def lowerAscii (cs : List Char) : List Char := cs.map Char.toLower

/-- A decimal number, or one of the words `inf`, `infinity` and `nan` in any case; either sign may
stand in front. -/
def decimal? (s : String) : Option Binary64 :=
  let read (negative : Bool) (cs : List Char) : Option Binary64 :=
    let word := String.ofList (lowerAscii cs)
    if word = "inf" ∨ word = "infinity" then some (.infinite negative)
    else if word = "nan" then some .nan
    else magnitude? negative cs
  match s.toList with
  | '+' :: rest => read false rest
  | '-' :: rest => read true rest
  | cs => read false cs

end JobPipeline.Numeral
