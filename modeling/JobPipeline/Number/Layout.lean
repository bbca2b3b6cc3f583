import JobPipeline.Number.Shortest

/-!
# The text of a binary64 number

Every text shows the digits of `Decimal.shortest`; a `Layout` says how. There are two in use:
`Layout.json` for JSON documents and `Layout.plain` for numbers that become configuration text.
-/

namespace JobPipeline

/-- The choices that turn digits into text. -/
structure Layout where
  /-- The scientific exponents written without one: from the first up to below the second; all
  if absent. -/
  positional : Option (Int × Int)
  /-- Whether a whole number written positionally ends in `.0`. -/
  keepsFraction : Bool
deriving DecidableEq, Repr

namespace Layout

/-- JSON documents: positional from 1e-5 up to below 1e16, always with a fraction; else
`d.ddde±x`. -/
def json : Layout := ⟨some (-5, 16), true⟩

/-- Plain text: positional throughout, whole numbers without a fraction. -/
def plain : Layout := ⟨none, false⟩

def digits (n : Nat) : List Char := Nat.toDigits 10 n

/-- `digits · 10 ^ exponent` written without an exponent. -/
def positionalText (keepsFraction : Bool) (d : Decimal) : List Char :=
  let ds := digits d.digits
  if 0 ≤ d.exponent then
    (if d.digits = 0 then ['0'] else ds ++ List.replicate d.exponent.toNat '0') ++
      (if keepsFraction then ['.', '0'] else [])
  else
    let places := (-d.exponent).toNat
    if ds.length ≤ places then '0' :: '.' :: (List.replicate (places - ds.length) '0' ++ ds)
    else ds.take (ds.length - places) ++ '.' :: ds.drop (ds.length - places)

/-- `digits · 10 ^ exponent` written as `d.ddde±x`. -/
def scientificText (d : Decimal) (exponent : Int) : List Char :=
  let ds := digits d.digits
  ds.take 1 ++ (if ds.length = 1 then [] else '.' :: ds.drop 1) ++
    'e' :: (if exponent < 0 then '-' else '+') :: digits exponent.natAbs

def decimal (l : Layout) (d : Decimal) : List Char :=
  let exponent : Int := d.exponent + (digits d.digits).length - 1
  match l.positional with
  | none => positionalText l.keepsFraction d
  | some (lo, hi) =>
    if d.digits = 0 ∨ (lo ≤ exponent ∧ exponent < hi) then positionalText l.keepsFraction d
    else scientificText d exponent

def text (l : Layout) : Binary64 → String
  | .nan => "NaN"
  | .infinite negative => if negative then "-inf" else "inf"
  | .finite negative m e =>
    String.ofList ((if negative then ['-'] else []) ++ l.decimal (Decimal.shortest m e))

end Layout
end JobPipeline
