import JobPipeline.Number.Numeral
import JobPipeline.Text.Blank
import JobPipeline.Time.Instant

/-!
# Timestamps as text

`print` writes an instant in UTC: `YYYY-MM-DDTHH:MM:SS`, then the shortest of none, three, six or
nine fractional digits that loses nothing, then `Z`. A leap second is written as second 60.

`parse?` is more liberal than that form. Blanks may stand before any number and around `-`, `:` and
the offset; months, days, hours, minutes and seconds may have one digit; the date and the time are
separated by `t`, `T` or a space; digits beyond nanoseconds are dropped; the offset is `Z`, `UTC` or
`±hh` and `mm` with any colons and blanks between. Years of up to four digits need no sign.
-/

namespace JobPipeline.Rfc3339

open Calendar

/-! ## Printing -/

/-- At least `width` decimal digits. -/
def padded (width n : Nat) : List Char :=
  let ds := Nat.toDigits 10 n
  List.replicate (width - ds.length) '0' ++ ds

/-- A year: four digits, or a sign and at least four when it is outside 0 to 9999. -/
def printYear (y : Int) : List Char :=
  if 0 ≤ y ∧ y ≤ 9999 then padded 4 y.toNat
  else (if y < 0 then '-' else '+') :: padded 4 y.natAbs

/-- The fraction of a second in the fewest groups of three digits. -/
def printFraction (nanos : Nat) : List Char :=
  if nanos = 0 then []
  else if nanos % 1000000 = 0 then '.' :: padded 3 (nanos / 1000000)
  else if nanos % 1000 = 0 then '.' :: padded 6 (nanos / 1000)
  else '.' :: padded 9 nanos

def printChars (t : Instant) : List Char :=
  let (day, second) := t.dayAndSecond
  let d := civil day
  let leap := 1000000000 ≤ t.nanos
  printYear d.year ++ '-' :: padded 2 d.month ++ '-' :: padded 2 d.day ++
    'T' :: padded 2 (second / 3600) ++ ':' :: padded 2 (second / 60 % 60) ++
    ':' :: padded 2 (second % 60 + (if leap then 1 else 0)) ++
    printFraction (if leap then t.nanos - 1000000000 else t.nanos) ++ ['Z']

def print (t : Instant) : String := String.ofList (printChars t)

/-! ## Parsing -/

/-- A number of one to `width` digits, and what follows. -/
def number? (width : Nat) (cs : List Char) : Option (Nat × List Char) :=
  let ds := (cs.take width).takeWhile Numeral.isDigit
  if ds.isEmpty then none else some (Numeral.value 0 ds, cs.drop ds.length)

/-- A year: up to four digits, or any number of them after a sign. -/
def year? (cs : List Char) : Option (Int × List Char) :=
  match trimStart cs with
  | '-' :: rest => (number? rest.length rest).map fun (n, rest) => (-(n : Int), rest)
  | '+' :: rest => (number? rest.length rest).map fun (n, rest) => ((n : Int), rest)
  | rest => (number? 4 rest).map fun (n, rest) => ((n : Int), rest)

/-- A number of one or two digits within bounds, blanks before it allowed. -/
def field? (lo hi : Nat) (cs : List Char) : Option (Nat × List Char) :=
  (number? 2 (trimStart cs)).filter fun (n, _) => lo ≤ n ∧ n ≤ hi

/-- A separator, blanks before it allowed. -/
def separator? (c : Char) (cs : List Char) : Option (List Char) :=
  match trimStart cs with
  | d :: rest => if c = d then some rest else none
  | [] => none

/-- An optional fraction of a second, in nanoseconds. -/
def fraction? : List Char → Option (Nat × List Char)
  | '.' :: rest =>
    let ds := rest.takeWhile Numeral.isDigit
    if ds.isEmpty then none
    else
      let kept := ds.take 9
      some (Numeral.value 0 kept * Nat.pow 10 (9 - kept.length), rest.drop ds.length)
  | cs => some (0, cs)

/-- An offset from UTC in seconds. -/
def offset? (cs : List Char) : Option (Int × List Char) :=
  let signed (sign : Int) (cs : List Char) : Option (Int × List Char) :=
    match cs with
    | a :: b :: rest =>
      if Numeral.isDigit a ∧ Numeral.isDigit b then
        match rest.dropWhile (fun c => c = ':' || isBlank c) with
        | c :: d :: rest =>
          let minutes := Numeral.value 0 [c, d]
          let hours := Numeral.value 0 [a, b]
          if Numeral.isDigit c ∧ Numeral.isDigit d ∧ minutes < 60 ∧ hours < 24 then
            some (sign * ((hours * 3600 + minutes * 60 : Nat) : Int), rest)
          else none
        | _ => none
      else none
    | _ => none
  match cs with
  | 'Z' :: rest => some (0, rest)
  | 'z' :: rest => some (0, rest)
  | '+' :: rest => signed 1 rest
  | '-' :: rest => signed (-1) rest
  | '\u2212' :: rest => signed (-1) rest
  | a :: b :: c :: rest =>
    if [a, b, c].map Char.toUpper = ['U', 'T', 'C'] then some (0, rest)
    else none
  | _ => none

/-- The instants a timestamp can name: the years -262143 to 262142. -/
def inRange (t : Instant) : Bool :=
  daysFrom ⟨-262143, 1, 1⟩ * 86400 ≤ t.seconds && t.seconds < daysFrom ⟨262143, 1, 1⟩ * 86400

/-- The instant that a timestamp names. -/
def parse? (s : String) : Option Instant := do
  let (year, cs) ← year? s.toList
  let (month, cs) ← field? 1 12 (← separator? '-' cs)
  let (day, cs) ← field? 1 31 (← separator? '-' cs)
  let cs ← match cs with
    | 'T' :: rest => some rest
    | 't' :: rest => some rest
    | ' ' :: rest => some rest
    | _ => none
  let (hour, cs) ← field? 0 23 cs
  let (minute, cs) ← field? 0 59 (← separator? ':' cs)
  let (second, cs) ← field? 0 60 (← separator? ':' cs)
  let (nanos, cs) ← fraction? cs
  let (offset, cs) ← offset? (trimStart cs)
  if ¬ (trimStart cs).isEmpty then none
  else
    let date : Date := ⟨year, month, day⟩
    let leap := second = 60
    let wall : Instant :=
      ⟨daysFrom date * 86400 + (hour * 3600 + minute * 60 + (if leap then 59 else second) : Nat),
        if leap then nanos + 1000000000 else nanos⟩
    let t : Instant := ⟨wall.seconds - offset, wall.nanos⟩
    if date.valid && inRange wall && inRange t then some t else none

end JobPipeline.Rfc3339
