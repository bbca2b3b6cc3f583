import JobPipeline.Text.Utf8

/-!
# Percent-encoded text

`unescape` undoes percent-encoding once, byte by byte. An escape that is not two hexadecimal digits
stays as it is written, so every text has a decoding; the decoded bytes need not be UTF-8.
-/

namespace JobPipeline.Percent

/-- The value of a hexadecimal digit of either case. -/
def hexDigit? (c : Char) : Option Nat :=
  if '0' ≤ c && c ≤ '9' then some (c.toNat - '0'.toNat)
  else if 'a' ≤ c && c ≤ 'f' then some (c.toNat - 'a'.toNat + 10)
  else if 'A' ≤ c && c ≤ 'F' then some (c.toNat - 'A'.toNat + 10)
  else none

/-- The bytes that a percent-encoded character list stands for. -/
def unescape : List Char → List UInt8
  | [] => []
  | '%' :: h :: l :: rest =>
    match hexDigit? h, hexDigit? l with
    | some hi, some lo => UInt8.ofNat (hi * 16 + lo) :: unescape rest
    | _, _ => 0x25 :: unescape (h :: l :: rest)
  | c :: rest => String.utf8EncodeChar c ++ unescape rest

/-- The text a percent-encoded segment stands for, if its bytes are UTF-8. -/
def decode? (segment : String) : Option String := Utf8.text? (unescape segment.toList)

end JobPipeline.Percent
