import JobPipeline.Text.Percent

/-!
# Characters and strings of TOML

`Style` tells the four kinds of strings apart: single quotes stand for literal text, double ones for
text with escapes, and three of either for text of several lines. At the end of such a text up to
two quotes more belong to it.

All line ends are single line feeds here; a carriage return that is left is an error wherever it
stands.
-/

namespace JobPipeline.Toml

/-- Every line end as a line feed. -/
def unifyLineEnds : List Char → List Char
  | '\r' :: '\n' :: rest => '\n' :: unifyLineEnds rest
  | c :: rest => c :: unifyLineEnds rest
  | [] => []

/-- Whether a character is a blank within a line. -/
def isSpace (c : Char) : Bool := c == ' ' || c == '\t'

/-- Whether a character may stand in a comment or in a string. -/
def isText (c : Char) : Bool := c == '\t' || (' ' ≤ c && c ≠ '\x7f')

/-- The characters from the first that is no blank on. -/
def skipSpace (cs : List Char) : List Char := cs.dropWhile isSpace

/-- The characters behind a comment, if there is one. -/
def skipComment : List Char → List Char
  | '#' :: rest => rest.dropWhile isText
  | cs => cs

/-- Passes over blanks, line ends and comments. A comment must end with its line. -/
def skipLines : Nat → List Char → Option (List Char)
  | 0, _ => none
  | bound + 1, cs => match skipSpace cs with
    | '\n' :: rest => skipLines bound rest
    | '#' :: rest => match rest.dropWhile isText with
      | '\n' :: rest => skipLines bound rest
      | _ => none
    | rest => some rest

/-- Passes over the rest of a line that may hold a comment and nothing else. -/
def endLine (cs : List Char) : Option (List Char) :=
  match skipComment (skipSpace cs) with
  | [] => some []
  | '\n' :: rest => some rest
  | _ => none

/-! ## Strings -/

/-- A kind of string. -/
structure Style where
  quote : Char
  /-- A backslash starts an escape. -/
  escapes : Bool
  /-- The string is between triple quotes. -/
  multiline : Bool

/-- Where the reader of a string stands. -/
inductive StringState
  | plain
  /-- After a run of quotes inside a string of several lines. -/
  | quotes (n : Nat)
  /-- After a backslash. -/
  | escape
  /-- Inside a numbered escape, with some digits to come after the next one. -/
  | digits (left : Nat) (acc : Nat)
  /-- Between a backslash and the line end that it takes away. -/
  | lineEnd
  /-- Behind such a line end, where blanks are taken away too. -/
  | folded

/-- The character that a one-letter escape stands for. -/
def shortEscape? (c : Char) : Option Char :=
  if c = 'b' then some '\x08'
  else if c = 't' then some '\t'
  else if c = 'n' then some '\n'
  else if c = 'f' then some '\x0c'
  else if c = 'r' then some '\r'
  else if c = '"' ∨ c = '\\' then some c
  else none

/-- The character of a number, if there is one. -/
def scalar? (n : Nat) : Option Char :=
  if n < 0xD800 ∨ (0xDFFF < n ∧ n < 0x110000) then some (Char.ofNat n) else none

/-- What a character other than the quote does in the middle of a string: where the reader stands
next, and what is added. -/
def Style.plain (s : Style) (c : Char) : Option (StringState × List Char) :=
  if s.escapes ∧ c = '\\' then some (.escape, [])
  else if isText c ∨ (s.multiline ∧ c = '\n') then some (.plain, [c])
  else none

/-- Reads a string behind its opening quotes; `acc` holds the text so far, last first. -/
def stringFrom (s : Style) : StringState → List Char → List Char → Option (String × List Char)
  | .quotes n, acc, [] =>
    if 3 ≤ n then some (String.ofList (List.replicate (n - 3) s.quote ++ acc).reverse, []) else none
  | _, _, [] => none
  | .plain, acc, c :: rest =>
    if c = s.quote then
      if s.multiline then stringFrom s (.quotes 1) acc rest
      else some (String.ofList acc.reverse, rest)
    else match s.plain c with
      | some (state, added) => stringFrom s state (added ++ acc) rest
      | none => none
  | .quotes n, acc, c :: rest =>
    if c = s.quote then
      if n < 5 then stringFrom s (.quotes (n + 1)) acc rest else none
    else if 3 ≤ n then
      some (String.ofList (List.replicate (n - 3) s.quote ++ acc).reverse, c :: rest)
    else match s.plain c with
      | some (state, added) => stringFrom s state (added ++ List.replicate n s.quote ++ acc) rest
      | none => none
  | .escape, acc, c :: rest =>
    if c = 'u' then stringFrom s (.digits 3 0) acc rest
    else if c = 'U' then stringFrom s (.digits 7 0) acc rest
    else match shortEscape? c with
      | some d => stringFrom s .plain (d :: acc) rest
      | none =>
        if s.multiline ∧ c = '\n' then stringFrom s .folded acc rest
        else if s.multiline ∧ isSpace c then stringFrom s .lineEnd acc rest
        else none
  | .digits left n, acc, c :: rest => match Percent.hexDigit? c with
    | none => none
    | some d => match left with
      | left + 1 => stringFrom s (.digits left (n * 16 + d)) acc rest
      | 0 => match scalar? (n * 16 + d) with
        | some c => stringFrom s .plain (c :: acc) rest
        | none => none
  | .lineEnd, acc, c :: rest =>
    if isSpace c then stringFrom s .lineEnd acc rest
    else if c = '\n' then stringFrom s .folded acc rest
    else none
  | .folded, acc, c :: rest =>
    if isSpace c ∨ c = '\n' then stringFrom s .folded acc rest
    else if c = s.quote then stringFrom s (.quotes 1) acc rest
    else match s.plain c with
      | some (state, added) => stringFrom s state (added ++ acc) rest
      | none => none

/-- Reads a string of several lines behind its opening quotes; a line end right there does
not count. -/
def multilineFrom (quote : Char) (escapes : Bool) : List Char → Option (String × List Char)
  | '\n' :: rest => stringFrom ⟨quote, escapes, true⟩ .plain [] rest
  | cs => stringFrom ⟨quote, escapes, true⟩ .plain [] cs

/-- Reads a string of one line. -/
def singleLine? : List Char → Option (String × List Char)
  | '"' :: rest => stringFrom ⟨'"', true, false⟩ .plain [] rest
  | '\'' :: rest => stringFrom ⟨'\'', false, false⟩ .plain [] rest
  | _ => none

def string? : List Char → Option (String × List Char)
  | '"' :: '"' :: '"' :: rest => multilineFrom '"' true rest
  | '\'' :: '\'' :: '\'' :: rest => multilineFrom '\'' false rest
  | cs => singleLine? cs

/-! ## Keys -/

/-- Whether a character may stand in a key without quotes. -/
def isBareKeyChar (c : Char) : Bool := c.isAlphanum || c == '_' || c == '-'

/-- Reads one key of a dotted key. -/
def simpleKey? (cs : List Char) : Option (String × List Char) :=
  match singleLine? cs with
  | some found => some found
  | none =>
    let key := cs.takeWhile isBareKeyChar
    if key.isEmpty then none else some (String.ofList key, cs.dropWhile isBareKeyChar)

/-- Reads keys with points between them; blanks may stand around the points. -/
def dottedKey? : Nat → List Char → Option (List String × List Char)
  | 0, _ => none
  | bound + 1, cs => match simpleKey? (skipSpace cs) with
    | none => none
    | some (key, rest) => match skipSpace rest with
      | '.' :: rest => (dottedKey? bound rest).map fun (keys, rest) => (key :: keys, rest)
      | rest => some ([key], rest)

end JobPipeline.Toml
