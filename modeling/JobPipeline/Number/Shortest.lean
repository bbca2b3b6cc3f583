import JobPipeline.Number.Binary64

/-!
# The shortest decimal that reads back

`Decimal.shortest m e` is the decimal with the fewest digits among those that round to `m · 2 ^ e`;
of several with that many digits it is the nearest. All arithmetic is exact: the reals that round to
the number form an interval, closed when `m` is even, and for one, two, … seventeen digits the two
neighbours of the number on that decimal grid are tested against it.
-/

namespace JobPipeline

/-- The decimal `digits · 10 ^ exponent`. -/
structure Decimal where
  digits : Nat
  exponent : Int
deriving DecidableEq, Repr

namespace Decimal

/-- A number together with the ends of the interval of reals that round to it, all over one
denominator. -/
structure Interval where
  lo : Nat
  mid : Nat
  hi : Nat
  den : Nat
  closed : Bool

/-- The rounding interval of `m · 2 ^ e`. Below a power of two the numbers lie twice as dense, so
there the lower half is half as wide. -/
def Interval.of (m : Nat) (e : Int) : Interval :=
  let low := if m = Nat.pow 2 52 ∧ -1074 < e then 4 * m - 1 else 4 * m - 2
  let e := e - 2
  let up := if 0 ≤ e then Nat.pow 2 e.toNat else 1
  let den := if 0 ≤ e then 1 else Nat.pow 2 (-e).toNat
  ⟨low * up, 4 * m * up, (4 * m + 2) * up, den, m % 2 == 0⟩

/-- Whether `digits · 10 ^ exponent` lies in the interval. -/
def Interval.contains (i : Interval) (d : Decimal) : Bool :=
  let num :=
    if 0 ≤ d.exponent then d.digits * Nat.pow 10 d.exponent.toNat * i.den
    else d.digits * i.den
  let unit := if 0 ≤ d.exponent then 1 else Nat.pow 10 (-d.exponent).toNat
  if i.closed then i.lo * unit ≤ num && num ≤ i.hi * unit
  else i.lo * unit < num && num < i.hi * unit

/-- The least `k` with `num / den < 10 ^ k`, near an estimate from the binary lengths. -/
def magnitudeOf (num den : Nat) : Int :=
  let estimate : Int := (((num.log2 : Int) - (den.log2 : Int)) * 30103) / 100000 - 1
  let below (k : Int) : Bool :=
    if 0 ≤ k then num < den * Nat.pow 10 k.toNat else num * Nat.pow 10 (-k).toNat < den
  if below estimate then estimate
  else if below (estimate + 1) then estimate + 1
  else if below (estimate + 2) then estimate + 2
  else estimate + 3

/-- The number of `n` digits nearest to the middle of the interval among those inside it, if there
is one. A tie goes to the even digit. -/
def Interval.onGrid (i : Interval) (magnitude : Int) (n : Nat) : Option Decimal :=
  let p := magnitude - n
  let num := if 0 ≤ p then i.mid else i.mid * Nat.pow 10 (-p).toNat
  let den := if 0 ≤ p then i.den * Nat.pow 10 p.toNat else i.den
  let below : Decimal := ⟨num / den, p⟩
  let above : Decimal := ⟨num / den + 1, p⟩
  let r := num % den
  let nearer := if 2 * r < den then below else if den < 2 * r then above
    else if (num / den) % 2 = 0 then below else above
  match i.contains below, i.contains above with
  | true, true => some nearer
  | true, false => some below
  | false, true => some above
  | false, false => none

/-- The first grid, from `n` digits on, that has a number in the interval. -/
def Interval.search (i : Interval) (magnitude : Int) : Nat → Nat → Decimal
  | 0, n => ((i.onGrid magnitude n).getD ⟨i.mid / i.den, 0⟩)
  | more + 1, n =>
    match i.onGrid magnitude n with
    | some d => d
    | none => i.search magnitude more (n + 1)

/-- Trailing zero digits moved into the exponent, at most `fuel` of them. -/
def strip : Nat → Decimal → Decimal
  | 0, d => d
  | fuel + 1, d =>
    if d.digits ≠ 0 ∧ d.digits % 10 = 0 then strip fuel ⟨d.digits / 10, d.exponent + 1⟩
    else d

/-- The shortest decimal that reads back as `m · 2 ^ e`. -/
def shortest (m : Nat) (e : Int) : Decimal :=
  if m = 0 then ⟨0, 0⟩
  else
    let i := Interval.of m e
    strip 20 (i.search (magnitudeOf i.mid i.den) 16 1)

end Decimal
end JobPipeline
