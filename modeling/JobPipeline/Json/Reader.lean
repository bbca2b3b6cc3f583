import JobPipeline.Json.Value
import JobPipeline.Number.Numeral
import JobPipeline.Text.Percent

/-!
# Reading JSON

The reader goes through the symbols of a document once, from left to right, and stops at the first
fault. A fault is `malformed` if what stands there is no JSON, and `mismatch` if it is JSON of an
unwanted type; the first fault met decides, so a type clash early on hides any syntax error behind
it.

`value` reads a free-form value: strict grammar, arrays and objects nested at most `depth` deep.
`skip` passes over a value that nobody wants: the same grammar without a bound on nesting, and
without a look at what the escapes and bytes of a string spell.

Loops take a `bound` that exceeds the number of symbols left; it only counts them off.
-/

namespace JobPipeline.Json

open Utf8 (Symbol)

/-- Why a document cannot be read as the wanted type. -/
inductive Fault
  | malformed
  | mismatch
deriving DecidableEq, Repr

/-- What a reader gives: a value and the symbols after it. -/
abbrev Result (α : Type) := Except Fault (α × List Symbol)

/-- Whether a character may stand between the tokens of a document. -/
def isSpace (c : Char) : Bool := c == ' ' || c == '\t' || c == '\n' || c == '\r'

/-- The symbols from the first that is no space on. -/
def skipSpace : List Symbol → List Symbol
  | .char c :: rest => if isSpace c then skipSpace rest else .char c :: rest
  | input => input

/-- Passes over the given characters. -/
def word : List Char → List Symbol → Except Fault (List Symbol)
  | [], input => .ok input
  | c :: cs, .char d :: rest => if c = d then word cs rest else .error .malformed
  | _ :: _, _ => .error .malformed

/-! ## Strings -/

/-- Where the reader stands inside a string: between characters, after a backslash, inside the
digits of a `\u` escape (`left + 1` to come), or after a leading surrogate that wants a
trailing one. -/
inductive Escape
  | none
  | begun
  | hex (high : Option Nat) (left : Nat) (acc : Nat)
  | trailingBackslash (high : Nat)
  | trailingU (high : Nat)

/-- The character a one-letter escape stands for. -/
def shortEscape? (c : Char) : Option Char :=
  if c = '"' ∨ c = '\\' ∨ c = '/' then some c
  else if c = 'b' then some '\x08'
  else if c = 'f' then some '\x0c'
  else if c = 'n' then some '\n'
  else if c = 'r' then some '\r'
  else if c = 't' then some '\t'
  else none

/-- The rest of a string whose characters so far are `acc`, last first. -/
def stringFrom : Escape → List Char → List Symbol → Result String
  | _, _, [] => .error .malformed
  | _, _, .broken :: _ => .error .malformed
  | .none, acc, .char c :: rest =>
    if c = '"' then .ok (String.ofList acc.reverse, rest)
    else if c = '\\' then stringFrom .begun acc rest
    else if c.toNat < 0x20 then .error .malformed
    else stringFrom .none (c :: acc) rest
  | .begun, acc, .char c :: rest =>
    if c = 'u' then stringFrom (.hex none 3 0) acc rest
    else match shortEscape? c with
      | some d => stringFrom .none (d :: acc) rest
      | none => .error .malformed
  | .hex high left n, acc, .char c :: rest =>
    match Percent.hexDigit? c with
    | none => .error .malformed
    | some d =>
      let n := n * 16 + d
      match left, high with
      | left + 1, high => stringFrom (.hex high left n) acc rest
      | 0, some h =>
        if 0xDC00 ≤ n ∧ n ≤ 0xDFFF then
          stringFrom .none (Char.ofNat ((h - 0xD800) * 0x400 + (n - 0xDC00) + 0x10000) :: acc) rest
        else .error .malformed
      | 0, none =>
        if n < 0xD800 ∨ 0xDFFF < n then stringFrom .none (Char.ofNat n :: acc) rest
        else if n ≤ 0xDBFF then stringFrom (.trailingBackslash n) acc rest
        else .error .malformed
  | .trailingBackslash h, acc, .char c :: rest =>
    if c = '\\' then stringFrom (.trailingU h) acc rest else .error .malformed
  | .trailingU h, acc, .char c :: rest =>
    if c = 'u' then stringFrom (.hex (some h) 3 0) acc rest else .error .malformed

/-- A string, from after its opening quote. -/
def stringBody (input : List Symbol) : Result String := stringFrom .none [] input

/-- Where the reader stands inside a string it passes over. -/
inductive SkippedEscape
  | none
  | begun
  | hex (left : Nat)

/-- Passes over the rest of a string. -/
def skipStringFrom : SkippedEscape → List Symbol → Except Fault (List Symbol)
  | _, [] => .error .malformed
  | .none, .broken :: rest => skipStringFrom .none rest
  | _, .broken :: _ => .error .malformed
  | .none, .char c :: rest =>
    if c = '"' then .ok rest
    else if c = '\\' then skipStringFrom .begun rest
    else if c.toNat < 0x20 then .error .malformed
    else skipStringFrom .none rest
  | .begun, .char c :: rest =>
    if c = 'u' then skipStringFrom (.hex 3) rest
    else if (shortEscape? c).isSome then skipStringFrom .none rest
    else .error .malformed
  | .hex left, .char c :: rest =>
    if (Percent.hexDigit? c).isSome then
      match left with
      | left + 1 => skipStringFrom (.hex left) rest
      | 0 => skipStringFrom .none rest
    else .error .malformed

/-! ## Numbers -/

/-- A number as it is written. -/
structure Written where
  negative : Bool
  whole : List Char
  fraction : List Char
  exponent : Option Int
  /-- Neither a point nor an exponent was written. -/
  isInteger : Bool

/-- The digits at the front, and what follows them. -/
def digits : List Symbol → List Char × List Symbol
  | .char c :: rest =>
    if Numeral.isDigit c then
      let (ds, rest) := digits rest
      (c :: ds, rest)
    else ([], .char c :: rest)
  | input => ([], input)

def exponent : List Symbol → Result (Option Int)
  | .char c :: rest =>
    if c = 'e' ∨ c = 'E' then
      let (sign, rest) : Int × List Symbol := match rest with
        | .char '+' :: rest => (1, rest)
        | .char '-' :: rest => (-1, rest)
        | rest => (1, rest)
      match digits rest with
      | ([], _) => .error .malformed
      | (ds, rest) => .ok (some (sign * Numeral.value 0 ds), rest)
    else .ok (none, .char c :: rest)
  | input => .ok (none, input)

/-- A number from after its sign: no leading zero, a digit on each side of a point. -/
def unsignedNumber (negative : Bool) (input : List Symbol) : Result Written :=
  match digits input with
  | ([], _) => .error .malformed
  | ('0' :: _ :: _, _) => .error .malformed
  | (whole, rest) =>
    let fraction : Result (List Char) := match rest with
      | .char '.' :: rest => match digits rest with
        | ([], _) => .error .malformed
        | (ds, rest) => .ok (ds, rest)
      | rest => .ok ([], rest)
    match fraction with
    | .error f => .error f
    | .ok (fraction, rest) => match exponent rest with
      | .error f => .error f
      | .ok (e, rest) => .ok (⟨negative, whole, fraction, e, fraction.isEmpty && e.isNone⟩, rest)

def number : List Symbol → Result Written
  | .char '-' :: rest => unsignedNumber true rest
  | input => unsignedNumber false input

/-- Reads digits into a significand while it stays below `2 ^ 64`, and counts the digits
that are left. -/
def gather : Nat → List Char → Nat × Nat
  | n, [] => (n, 0)
  | n, c :: cs =>
    let next := n * 10 + (c.toNat - '0'.toNat)
    if next < 18446744073709551616 then gather next cs else (n, cs.length + 1)

/-- The value of a number. An integer that fits 64 bits stays one, except that minus zero is a real
number; any other number is a significand of 64 bits scaled by a power of ten, and a fault if that
is too large. -/
def Written.toJson (w : Written) : Except Fault Json :=
  let (n, unread) := gather 0 w.whole
  let real (significand : Nat) (exponent : Int) : Except Fault Json :=
    match Binary64.scaled? significand exponent with
    | none => .error .malformed
    | some x => .ok (.real (if w.negative then x.negate else x))
  if w.isInteger && unread == 0 then
    if w.negative then
      if h : 0 < n ∧ n ≤ 9223372036854775808 then .ok (.integer ⟨-(n : Int), by omega⟩)
      else .ok (.real (Binary64.ofNat n).negate)
    else if h : n < 18446744073709551616 then .ok (.ofNat n h)
    else .error .malformed
  else
    let (m, left) := gather n w.fraction
    real m ((unread : Int) - (w.fraction.length - left : Nat) + w.exponent.getD 0)

def numberValue (input : List Symbol) : Result Json :=
  match number input with
  | .error f => .error f
  | .ok (w, rest) => match w.toJson with
    | .error f => .error f
    | .ok v => .ok (v, rest)

/-! ## Arrays and objects -/

/-- The rest of an array from after its bracket, or from after an element (`first` tells which): a
state is carried from element to element. -/
def elements {σ : Type} (element : σ → List Symbol → Result σ) :
    Nat → Bool → σ → List Symbol → Result σ
  | 0, _, _, _ => .error .malformed
  | bound + 1, first, s, input =>
    let next (input : List Symbol) : Result σ :=
      match element s input with
      | .error f => .error f
      | .ok (s, rest) => elements element bound false s rest
    match skipSpace input with
    | [] => .error .malformed
    | .char ']' :: rest => .ok (s, rest)
    | c :: rest =>
      if first then next (c :: rest)
      else if c = .char ',' then
        match skipSpace rest with
        | .char ']' :: _ => .error .malformed
        | rest => next rest
      else .error .malformed

/-- The rest of an object from after its brace, or from after a member: `key` reads a key from after
its quote, `member` what follows the key, the colon included. -/
def members {κ σ : Type} (key : List Symbol → Result κ) (member : κ → σ → List Symbol → Result σ) :
    Nat → Bool → σ → List Symbol → Result σ
  | 0, _, _, _ => .error .malformed
  | bound + 1, first, s, input =>
    let next (input : List Symbol) : Result σ :=
      match input with
      | .char '"' :: rest => match key rest with
        | .error f => .error f
        | .ok (k, rest) => match member k s rest with
          | .error f => .error f
          | .ok (s, rest) => members key member bound false s rest
      | _ => .error .malformed
    match skipSpace input with
    | .char '}' :: rest => .ok (s, rest)
    | .char ',' :: rest => if first then .error .malformed else next (skipSpace rest)
    | rest => if first then next rest else .error .malformed

/-- Passes over the colon between a key and its value. -/
def colon (input : List Symbol) : Except Fault (List Symbol) :=
  match skipSpace input with
  | .char ':' :: rest => .ok rest
  | _ => .error .malformed

/-! ## Values -/

/-- A value that is neither an array nor an object, with no space in front. -/
def scalar : List Symbol → Result Json
  | .char 'n' :: rest => (word "ull".toList rest).map fun rest => (.null, rest)
  | .char 't' :: rest => (word "rue".toList rest).map fun rest => (.bool true, rest)
  | .char 'f' :: rest => (word "alse".toList rest).map fun rest => (.bool false, rest)
  | .char '"' :: rest => (stringBody rest).map fun (s, rest) => (.string s, rest)
  | .char c :: rest =>
    if c = '-' ∨ Numeral.isDigit c then numberValue (.char c :: rest) else .error .malformed
  | _ => .error .malformed

/-- A free-form value whose arrays and objects are nested at most `depth` deep. -/
def value (bound : Nat) : Nat → List Symbol → Result Json
  | 0, input => scalar (skipSpace input)
  | depth + 1, input =>
    match skipSpace input with
    | .char '[' :: rest =>
      let element (items : List Json) (input : List Symbol) : Result (List Json) :=
        (value bound depth input).map fun (v, rest) => (v :: items, rest)
      (elements element bound true [] rest).map fun (items, rest) => (.array items.reverse, rest)
    | .char '{' :: rest =>
      let member (key : String) (fields : List (String × Json)) (input : List Symbol) :
          Result (List (String × Json)) :=
        match colon input with
        | .error f => .error f
        | .ok rest => (value bound depth rest).map fun (v, rest) => (insertField key v fields, rest)
      (members stringBody member bound true [] rest).map fun (fields, rest) =>
        (.object fields, rest)
    | rest => scalar rest

/-- Passes over a scalar, with no space in front. -/
def skipScalar : List Symbol → Except Fault (List Symbol)
  | .char '"' :: rest => skipStringFrom .none rest
  | .char c :: rest =>
    if c = '-' ∨ Numeral.isDigit c then (number (.char c :: rest)).map Prod.snd
    else (scalar (.char c :: rest)).map Prod.snd
  | _ => .error .malformed

/-- Passes over a value; `fuel` exceeds the number of symbols left. -/
def skip : Nat → List Symbol → Except Fault (List Symbol)
  | 0, _ => .error .malformed
  | fuel + 1, input =>
    match skipSpace input with
    | .char '[' :: rest =>
      let element (_ : Unit) (input : List Symbol) : Result Unit :=
        (skip fuel input).map fun rest => ((), rest)
      (elements element (fuel + 1) true () rest).map Prod.snd
    | .char '{' :: rest =>
      let key (input : List Symbol) : Result Unit :=
        (skipStringFrom .none input).map fun rest => ((), rest)
      let member (_ _ : Unit) (input : List Symbol) : Result Unit :=
        match colon input with
        | .error f => .error f
        | .ok rest => (skip fuel rest).map fun rest => ((), rest)
      (members key member (fuel + 1) true () rest).map Prod.snd
    | rest => skipScalar rest

/-- The fault of finding some other value where a certain type is wanted: a mismatch if a value
starts there, and a syntax error if it does not. Strings, numbers and words are read to their
end to tell. -/
def clash (input : List Symbol) : Fault :=
  match skipSpace input with
  | .char '[' :: _ => .mismatch
  | .char '{' :: _ => .mismatch
  | rest => match scalar rest with
    | .ok _ => .mismatch
    | .error f => f

/-- The nesting that a document may have. -/
def maxDepth : Nat := 127

end JobPipeline.Json
