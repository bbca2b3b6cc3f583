import JobPipeline.Text.Percent

/-!
# Random identities

`Uuid.v4` lays out 128 random bits as the text of a version 4 UUID: lower-case hexadecimal in groups
of 8, 4, 4, 4 and 12 digits, six of the bits replaced by the version and the variant. `Uuid.isV4`
recognises such texts.
-/

namespace JobPipeline.Uuid

/-- The last `n` hexadecimal digits of a number. -/
def hexDigits : Nat → Nat → List Char
  | 0, _ => []
  | n + 1, x => hexDigits n (x / 16) ++ [Nat.digitChar (x % 16)]

/-- The version 4 UUID made of random bits: 48, 12 and 62 of them are kept. -/
def v4 (random : Nat) : String :=
  String.ofList (hexDigits 8 (random / Nat.pow 2 96) ++
    '-' :: hexDigits 4 (random / Nat.pow 2 80) ++
    '-' :: '4' :: hexDigits 3 (random / Nat.pow 2 64) ++
    '-' :: Nat.digitChar (8 + random / Nat.pow 2 60 % 4) :: hexDigits 3 (random / Nat.pow 2 48) ++
    '-' :: hexDigits 12 random)

def isLowerHex (c : Char) : Bool := ('0' ≤ c && c ≤ '9') || ('a' ≤ c && c ≤ 'f')

/-- Whether a text is a hyphenated lower-case version 4 UUID. -/
def isV4 (s : String) : Bool :=
  let cs := s.toList
  cs.length == 36 &&
    (List.range 36).all fun i =>
      let c := cs.getD i ' '
      if i = 8 ∨ i = 13 ∨ i = 18 ∨ i = 23 then c == '-'
      else if i = 14 then c == '4'
      else if i = 19 then c == '8' || c == '9' || c == 'a' || c == 'b'
      else isLowerHex c

end JobPipeline.Uuid
