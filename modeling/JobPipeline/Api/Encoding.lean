import JobPipeline.Api.Message

/-!
# Content encodings

A client lists the encodings it accepts, each with a quality between zero and one; an entry that
cannot be read is passed over. Of the encodings known here the one of highest quality is used, and
of two alike the compressing one. Bodies of fewer than 32 bytes are never compressed.
-/

namespace JobPipeline.Api

inductive Encoding
  | identity
  | gzip
deriving DecidableEq, Repr

namespace Encoding

def named? (name : String) : Option Encoding :=
  let name := lowered name
  if name = "gzip" ∨ name = "x-gzip" then some .gzip
  else if name = "identity" then some .identity
  else none

/-- A quality in thousandths: `q=0` or `q=1` with up to three decimals. -/
def quality? (text : String) : Option Nat :=
  match text.toList with
  | q :: '=' :: whole :: rest =>
    if (q = 'q' ∨ q = 'Q') ∧ (whole = '0' ∨ whole = '1') then
      let units := Numeral.value 0 [whole] * 1000
      match rest with
      | [] => some units
      | '.' :: decimals =>
        let total := units + Numeral.value 0 (decimals ++ List.replicate (3 - decimals.length) '0')
        if decimals.all Numeral.isDigit ∧ decimals.length ≤ 3 ∧ total ≤ 1000 then some total
        else none
      | _ => none
    else none
  | _ => none

def entry? (text : String) : Option (Encoding × Nat) := do
  let cs := text.toList
  let name := String.ofList (cs.takeWhile (· ≠ ';'))
  let encoding ← named? (trim name)
  match cs.dropWhile (· ≠ ';') with
  | _ :: parameter =>
    let quality ← quality? (trim (String.ofList parameter))
    return (encoding, quality)
  | [] => return (encoding, 1000)

/-- Whether the first entry is the less wanted of two. -/
def lessWanted (a b : Encoding × Nat) : Bool :=
  a.2 < b.2 || (a.2 = b.2 && (a.1 = .identity || b.1 = .gzip))

/-- The encoding a request wants most. -/
def preferred (r : Request) : Encoding :=
  let entries := ((r.headersNamed "accept-encoding").filterMap plainHeader?).flatMap fun value =>
    (value.splitOn ",").filterMap entry?
  let wanted := entries.filter fun (_, quality) => 0 < quality
  match wanted with
  | [] => .identity
  | first :: rest => (rest.foldl (fun best e => if lessWanted best e then e else best) first).1

/-- The length from which a body is compressed. -/
def leastLength : Nat := 32

end Encoding

/-- The response in the encoding that its request wants. -/
def Response.encoded (r : Request) (a : Response) : Response :=
  if Encoding.preferred r = .gzip ∧ Encoding.leastLength ≤ a.body.utf8ByteSize then
    a.adding [("content-encoding", "gzip")]
  else a

end JobPipeline.Api
