import JobPipeline.Json.Value
import JobPipeline.Number.Layout

/-!
# Compact JSON text

`Json.print` writes a value without any space. In strings the quote, the backslash and the
characters below U+0020 are escaped, the five that have a short form by it; everything else is
written as it is. Numbers that are not integers are laid out by `Layout.json`.
-/

namespace JobPipeline.Json

def hexDigit (n : Nat) : Char := Nat.digitChar n

/-- The characters that stand for one character inside a string. -/
def escape (c : Char) : List Char :=
  if c = '"' then ['\\', '"']
  else if c = '\\' then ['\\', '\\']
  else if c.toNat = 0x8 then ['\\', 'b']
  else if c.toNat = 0x9 then ['\\', 't']
  else if c.toNat = 0xA then ['\\', 'n']
  else if c.toNat = 0xC then ['\\', 'f']
  else if c.toNat = 0xD then ['\\', 'r']
  else if c.toNat < 0x20 then
    ['\\', 'u', '0', '0', hexDigit (c.toNat / 16), hexDigit (c.toNat % 16)]
  else [c]

def printString (s : String) : List Char := '"' :: (s.toList.flatMap escape ++ ['"'])

def printInt (n : Int) : List Char :=
  if n < 0 then '-' :: Nat.toDigits 10 n.natAbs else Nat.toDigits 10 n.natAbs

/-- Texts with a separator between neighbours. -/
def joined (separator : Char) : List (List Char) → List Char
  | [] => []
  | [t] => t
  | t :: ts => t ++ separator :: joined separator ts

/-- The texts between brackets. -/
def printArray (items : List (List Char)) : List Char := '[' :: (joined ',' items ++ [']'])

/-- One field of an object. -/
def printField (key : String) (value : List Char) : List Char := printString key ++ ':' :: value

/-- The fields between braces. -/
def printObject (fields : List (List Char)) : List Char := '{' :: (joined ',' fields ++ ['}'])

mutual

def print : Json → List Char
  | .null => "null".toList
  | .bool true => "true".toList
  | .bool false => "false".toList
  | .integer n => printInt n.val
  | .real x => (Layout.json.text x).toList
  | .string s => printString s
  | .array items => printArray (printItems items)
  | .object fields => printObject (printFields fields)

def printItems : List Json → List (List Char)
  | [] => []
  | v :: rest => print v :: printItems rest

def printFields : List (String × Json) → List (List Char)
  | [] => []
  | (k, v) :: rest => printField k (print v) :: printFields rest

end

/-- The text of a value as a string. -/
def render (v : Json) : String := String.ofList v.print

end JobPipeline.Json
