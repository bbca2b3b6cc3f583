/-!
# UTF-8 text in raw bytes

`decode` reads bytes as symbols. A well-formed sequence is the character it spells; each maximal run
of bytes that starts a character and cannot finish it is one `broken` symbol, and decoding resumes
right after the run. So no byte string is refused, and the readers built on top decide what a broken
symbol means:

* `text?` refuses it,
* `repair` shows it as U+FFFD,
* the JSON reader rejects it inside a value and passes over it inside a skipped field.

`encode` writes characters as bytes.
-/

namespace JobPipeline.Utf8

/-- One decoded unit of a byte string. -/
inductive Symbol
  | char (c : Char)
  | broken
deriving DecidableEq, Repr

/-- Where the decoder stands: between characters, or inside one that still needs `left + 1` bytes,
the next of them within `lo` and `hi`, having gathered `acc` so far. -/
inductive State
  | between
  | inside (left : Nat) (lo hi : UInt8) (acc : Nat)

/-- A byte that stands where a character may start. The bounds on the second byte exclude overlong
forms (after E0 and F0), surrogates (after ED) and values past U+10FFFF (after F4). -/
def lead (b : UInt8) : List Symbol × State :=
  if b < 0x80 then ([.char (Char.ofNat b.toNat)], .between)
  else if b < 0xC2 then ([.broken], .between)
  else if b < 0xE0 then ([], .inside 0 0x80 0xBF (b.toNat - 0xC0))
  else if b = 0xE0 then ([], .inside 1 0xA0 0xBF 0)
  else if b = 0xED then ([], .inside 1 0x80 0x9F 0xD)
  else if b < 0xF0 then ([], .inside 1 0x80 0xBF (b.toNat - 0xE0))
  else if b = 0xF0 then ([], .inside 2 0x90 0xBF 0)
  else if b < 0xF4 then ([], .inside 2 0x80 0xBF (b.toNat - 0xF0))
  else if b = 0xF4 then ([], .inside 2 0x80 0x8F 4)
  else ([.broken], .between)

/-- The symbols of the remaining bytes, from a given state. -/
def decodeFrom : State → List UInt8 → List Symbol
  | .between, [] => []
  | .inside .., [] => [.broken]
  | .between, b :: rest =>
    let (out, next) := lead b
    out ++ decodeFrom next rest
  | .inside left lo hi acc, b :: rest =>
    if lo ≤ b ∧ b ≤ hi then
      let acc := acc * 64 + (b.toNat - 0x80)
      match left with
      | 0 => .char (Char.ofNat acc) :: decodeFrom .between rest
      | left + 1 => decodeFrom (.inside left 0x80 0xBF acc) rest
    else
      let (out, next) := lead b
      .broken :: (out ++ decodeFrom next rest)

def decode (bytes : List UInt8) : List Symbol := decodeFrom .between bytes

def encode (s : String) : List UInt8 := s.toUTF8.toList

/-- The symbols of a text, none of them broken. -/
def symbols (s : String) : List Symbol := s.toList.map .char

/-- The characters of a symbol list that has no broken symbol. -/
def chars? : List Symbol → Option (List Char)
  | [] => some []
  | .char c :: rest => (chars? rest).map (c :: ·)
  | .broken :: _ => none

/-- The text that bytes spell, if they are well formed throughout. -/
def text? (bytes : List UInt8) : Option String := (chars? (decode bytes)).map String.ofList

/-- A symbol as a reader sees it: a broken one is the replacement character. -/
def Symbol.shown : Symbol → Char
  | .char c => c
  | .broken => '\uFFFD'

/-- The text that bytes spell, each broken run replaced by U+FFFD. -/
def repair (bytes : List UInt8) : String := String.ofList ((decode bytes).map Symbol.shown)

end JobPipeline.Utf8
