/-!
# Binary64 numbers, exactly

A finite `Binary64` is `± m · 2 ^ e` with natural `m`, so every operation is exact arithmetic
followed by one rounding. `ofRatio` is that rounding: to the nearest representable number, a tie
going to the even mantissa, values past the largest finite number becoming infinite. Reading a
decimal (`ofDecimal`), multiplying and dividing are all `ofRatio` of an exact quotient.
-/

namespace JobPipeline

/-- A binary64 number. Values made by `Binary64.ofRatio` are canonical: `m < 2 ^ 53`, `-1074 ≤ e`,
and `2 ^ 52 ≤ m` unless `e = -1074`. -/
inductive Binary64
  | finite (negative : Bool) (m : Nat) (e : Int)
  | infinite (negative : Bool)
  | nan
deriving DecidableEq, Repr

namespace Binary64

/-- The quotient `num / den` rounded to a whole number, a half going to the even neighbour. -/
def roundHalfEven (num den : Nat) : Nat :=
  let q := num / den
  let r := num % den
  if 2 * r < den then q
  else if den < 2 * r then q + 1
  else if q % 2 = 0 then q else q + 1

/-- The quotient `num / (den · 2 ^ e)` as a numerator and a denominator. -/
def scaledDown (num den : Nat) (e : Int) : Nat × Nat :=
  if 0 ≤ e then (num, den * Nat.pow 2 e.toNat) else (num * Nat.pow 2 (-e).toNat, den)

/-- The exponent that gives the quotient `num / den` a mantissa of 53 bits, or the least
exponent there is. -/
def exponentFor (num den : Nat) : Int :=
  let e : Int := (num.log2 : Int) - (den.log2 : Int) - 52
  let (n, d) := scaledDown num den e
  max (-1074) (if n < d * Nat.pow 2 52 then e - 1 else e)

/-- The number nearest to `± num / den`. -/
def ofRatio (negative : Bool) (num den : Nat) : Binary64 :=
  if num = 0 then .finite negative 0 (-1074)
  else
    let e := exponentFor num den
    let (n, d) := scaledDown num den e
    let m := roundHalfEven n d
    let (m, e) := if m = Nat.pow 2 53 then (Nat.pow 2 52, e + 1) else (m, e)
    if 971 < e then .infinite negative else .finite negative m e

def ofNat (n : Nat) : Binary64 := ofRatio false n 1

/-- `m · 2 ^ e` as a numerator and a denominator. -/
def magnitude (m : Nat) (e : Int) : Nat × Nat :=
  if 0 ≤ e then (m * Nat.pow 2 e.toNat, 1) else (m, Nat.pow 2 (-e).toNat)

/-- How many decimal digits a number has; zero has none. -/
def decimalLength (n : Nat) : Nat := if n = 0 then 0 else (Nat.toDigits 10 n).length

/-- The number nearest to `± digits · 10 ^ exponent`. Magnitudes far outside the range are decided
by their length alone, so that no huge power is ever formed. -/
def ofDecimal (negative : Bool) (digits : Nat) (exponent : Int) : Binary64 :=
  let size : Int := decimalLength digits + exponent
  if digits = 0 ∨ size < -330 then .finite negative 0 (-1074)
  else if 320 < size then .infinite negative
  else if 0 ≤ exponent then ofRatio negative (digits * Nat.pow 10 exponent.toNat) 1
  else ofRatio negative digits (Nat.pow 10 (-exponent).toNat)

/-- The product with a nonnegative power of ten, itself first rounded to a binary64 number. -/
def timesPowerOfTen (x : Binary64) (k : Nat) : Binary64 :=
  match x, ofNat (Nat.pow 10 k) with
  | .finite s m e, .finite _ m' e' =>
    let (n, d) := magnitude m e
    let (n', d') := magnitude m' e'
    ofRatio s (n * n') (d * d')
  | x, _ => x

/-- The quotient by a nonnegative power of ten, itself first rounded to a binary64 number. -/
def overPowerOfTen (x : Binary64) (k : Nat) : Binary64 :=
  match x, ofNat (Nat.pow 10 k) with
  | .finite s m e, .finite _ m' e' =>
    let (n, d) := magnitude m e
    let (n', d') := magnitude m' e'
    ofRatio s (n * d') (d * n')
  | x, _ => x

def isZero : Binary64 → Bool
  | .finite _ m _ => m == 0
  | _ => false

def negate : Binary64 → Binary64
  | .finite s m e => .finite (!s) m e
  | .infinite s => .infinite (!s)
  | .nan => .nan

/-- Divides by `10 ^ 308` until the remaining power of ten is in reach or the number has vanished;
`steps` is more than any 64-bit significand needs. -/
def descend : Nat → Binary64 → Nat → Binary64
  | 0, _, _ => .finite false 0 (-1074)
  | steps + 1, x, k =>
    if k ≤ 308 then overPowerOfTen x k
    else if isZero x then x
    else descend steps (overPowerOfTen x 308) (k - 308)

/-- `significand · 10 ^ exponent` reached by one multiplication, or by divisions, from the
significand: close to the nearest number, though not always equal to it. `none` when the value is
too large. -/
def scaled? (significand : Nat) (exponent : Int) : Option Binary64 :=
  let x := ofNat significand
  if 0 ≤ exponent then
    if exponent ≤ 308 then
      match timesPowerOfTen x exponent.toNat with
      | .infinite _ => none
      | y => some y
    else if isZero x then some x else none
  else some (descend 4 x (-exponent).toNat)

/-- The nearest whole number, a half going away from zero, clamped to `0 .. 2 ^ 64 - 1`. -/
def toUInt64Clamped : Binary64 → Nat
  | .nan => 0
  | .infinite negative => if negative then 0 else 18446744073709551615
  | .finite negative m e =>
    if negative then 0
    else
      let (n, d) := magnitude m e
      min ((2 * n + d) / (2 * d)) 18446744073709551615

theorem roundHalfEven_exact (q : Nat) {den : Nat} (h : 0 < den) :
    roundHalfEven (q * den) den = q := by
  simp [roundHalfEven, Nat.mul_div_cancel _ h, h]

end Binary64
end JobPipeline
