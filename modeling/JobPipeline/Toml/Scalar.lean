import JobPipeline.Config.Tree
import JobPipeline.Text.Percent
import JobPipeline.Time.Calendar
import JobPipeline.Time.Rfc3339

/-!
# Numbers, words and dates of TOML

A scalar other than a string is a run of characters without blanks, but for the one that may stand
between a date and a time. `scalar?` reads the whole run. Numbers may group their digits by
underscores, each between two digits. Integers have 64 bits; a decimal number too large to be finite
is refused, a negative one is not.

A date or time is the text that denotes it, in its usual form.
-/

namespace JobPipeline.Toml

/-- Whether a character may stand in a scalar that is no string. -/
def isScalarChar (c : Char) : Bool :=
  c.isAlphanum || c == '_' || c == '+' || c == '-' || c == '.' || c == ':'

/-! ## Numbers -/

/-- The digits of a run in which underscores may stand between two digits. -/
def grouped? (isDigit : Char → Bool) : List Char → Option (List Char)
  | [] => none
  | [c] => if isDigit c then some [c] else none
  | c :: '_' :: rest => if isDigit c then (grouped? isDigit rest).map (c :: ·) else none
  | c :: rest => if isDigit c then (grouped? isDigit rest).map (c :: ·) else none

/-- A number by its digits in some base. -/
def digitsValue (base : Nat) (cs : List Char) : Nat :=
  cs.foldl (fun n c => n * base + (Percent.hexDigit? c).getD 0) 0

/-- A sign and what follows it. -/
def signed : List Char → Bool × List Char
  | '+' :: rest => (false, rest)
  | '-' :: rest => (true, rest)
  | cs => (false, cs)

def isDigitOf (base : Nat) (c : Char) : Bool := ((Percent.hexDigit? c).any (· < base))

/-- The digits of a decimal number without needless zeros in front. -/
def decimalDigits? (cs : List Char) : Option (List Char) :=
  match grouped? (isDigitOf 10) cs with
  | some ('0' :: _ :: _) => none
  | digits => digits

/-- An integer, in decimal or behind the mark of another base. -/
def integer? (cs : List Char) : Option Int :=
  let inBase (base : Nat) (cs : List Char) : Option Int :=
    ((grouped? (isDigitOf base) cs).map fun ds => (digitsValue base ds : Int)).filter
      (· < 9223372036854775808)
  match cs with
  | '0' :: 'x' :: rest => inBase 16 rest
  | '0' :: 'o' :: rest => inBase 8 rest
  | '0' :: 'b' :: rest => inBase 2 rest
  | cs =>
    let (negative, digits) := signed cs
    ((decimalDigits? digits).map fun ds =>
      let n : Int := digitsValue 10 ds
      if negative then -n else n).filter fun n => -9223372036854775808 ≤ n ∧ n < 9223372036854775808

def exponent? (cs : List Char) : Option Int :=
  let (negative, digits) := signed cs
  (grouped? (isDigitOf 10) digits).map fun ds =>
    let n : Int := digitsValue 10 ds
    if negative then -n else n

/-- A decimal number: digits, then a fraction or an exponent or both. -/
def decimal? (cs : List Char) : Option Binary64 :=
  let (negative, cs) := signed cs
  if cs = ['i', 'n', 'f'] then some (.infinite negative)
  else if cs = ['n', 'a', 'n'] then some .nan
  else
    let isMark (c : Char) : Bool := c == '.' || c == 'e' || c == 'E'
    let finite (whole fraction : List Char) (exponent : Int) : Option Binary64 :=
      match Binary64.ofDecimal negative (digitsValue 10 (whole ++ fraction))
        (exponent - fraction.length) with
      | .infinite false => none
      | x => some x
    match decimalDigits? (cs.takeWhile (!isMark ·)), cs.dropWhile (!isMark ·) with
    | some whole, '.' :: rest =>
      let isExponentMark (c : Char) : Bool := c == 'e' || c == 'E'
      match grouped? (isDigitOf 10) (rest.takeWhile (!isExponentMark ·)),
        rest.dropWhile (!isExponentMark ·) with
      | some fraction, [] => finite whole fraction 0
      | some fraction, _ :: rest => (exponent? rest).bind (finite whole fraction)
      | none, _ => none
    | some whole, _ :: rest => (exponent? rest).bind (finite whole [])
    | _, _ => none

/-! ## Dates and times -/

/-- Reads a number of so many digits. -/
def fixed? (width : Nat) (cs : List Char) : Option (Nat × List Char) :=
  let ds := cs.take width
  if ds.length = width ∧ ds.all (isDigitOf 10) then some (digitsValue 10 ds, cs.drop width)
  else none

/-- Reads a number of two digits within bounds. -/
def within? (lo hi : Nat) (cs : List Char) : Option (Nat × List Char) :=
  (fixed? 2 cs).filter fun (n, _) => lo ≤ n && n ≤ hi

/-- Passes over a character. -/
def mark? (c : Char) : List Char → Option (List Char)
  | d :: rest => if c = d then some rest else none
  | [] => none

/-- Reads a date and gives its text. -/
def date? (cs : List Char) : Option (List Char × List Char) := do
  let (year, cs) ← fixed? 4 cs
  let cs ← mark? '-' cs
  let (month, cs) ← within? 1 12 cs
  let cs ← mark? '-' cs
  let (day, cs) ← within? 1 31 cs
  if Calendar.daysInMonth year month < day then none
  else
    return (Rfc3339.padded 4 year ++ '-' :: Rfc3339.padded 2 month ++ '-' :: Rfc3339.padded 2 day,
      cs)

/-- The text of a fraction of a second: nine digits at most, and none of the zeros at their end. -/
def fractionText (ds : List Char) : List Char :=
  let ds := ((ds.take 9).reverse.dropWhile (· = '0')).reverse
  if ds.isEmpty then [] else '.' :: ds

/-- Reads a time of day and gives its text. -/
def time? (cs : List Char) : Option (List Char × List Char) := do
  let (hour, cs) ← within? 0 23 cs
  let cs ← mark? ':' cs
  let (minute, cs) ← within? 0 59 cs
  let cs ← mark? ':' cs
  let (second, cs) ← within? 0 60 cs
  let whole :=
    Rfc3339.padded 2 hour ++ ':' :: Rfc3339.padded 2 minute ++ ':' :: Rfc3339.padded 2 second
  match cs with
  | '.' :: rest =>
    let ds := rest.takeWhile (isDigitOf 10)
    if ds.isEmpty then none else return (whole ++ fractionText ds, rest.dropWhile (isDigitOf 10))
  | cs => return (whole, cs)

/-- Reads an offset from universal time and gives its text; nothing is no offset. -/
def offset? : List Char → Option (List Char)
  | [] => some []
  | ['Z'] => some ['Z']
  | ['z'] => some ['Z']
  | sign :: cs => do
    if sign ≠ '+' ∧ sign ≠ '-' then none
    else
      let (hour, cs) ← within? 0 23 cs
      let cs ← mark? ':' cs
      let (minute, cs) ← within? 0 59 cs
      let sign := if hour = 0 ∧ minute = 0 then '+' else sign
      if cs.isEmpty then return sign :: Rfc3339.padded 2 hour ++ ':' :: Rfc3339.padded 2 minute
      else none

/-- A date, a time, or both with an offset or without, as its text. -/
def moment? (cs : List Char) : Option (List Char) :=
  match date? cs with
  | some (date, []) => some date
  | some (date, mark :: cs) =>
    if mark = 'T' ∨ mark = 't' ∨ mark = ' ' then do
      let (time, cs) ← time? cs
      let offset ← offset? cs
      return date ++ 'T' :: time ++ offset
    else none
  | none => match time? cs with
    | some (time, []) => some time
    | _ => none

/-! ## Scalars -/

/-- The setting that a run of characters denotes. -/
def scalarSetting? (cs : List Char) : Option Setting :=
  if cs = "true".toList then some (.bool true)
  else if cs = "false".toList then some (.bool false)
  else match integer? cs with
    | some n => some (.integer n)
    | none => match decimal? cs with
      | some x => some (.real x)
      | none => (moment? cs).map fun text => .text (String.ofList text)

def scalar (cs : List Char) : Option (Setting × List Char) :=
  let first := cs.takeWhile isScalarChar
  let rest := cs.dropWhile isScalarChar
  let joined : List Char × List Char := match rest with
    | ' ' :: c :: rest =>
      if ((date? first).any fun (_, left) => left.isEmpty) && isDigitOf 10 c then
        (first ++ ' ' :: c :: rest.takeWhile isScalarChar, rest.dropWhile isScalarChar)
      else (first, ' ' :: c :: rest)
    | rest => (first, rest)
  (scalarSetting? joined.1).map fun s => (s, joined.2)

end JobPipeline.Toml
