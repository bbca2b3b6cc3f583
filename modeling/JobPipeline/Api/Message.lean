import JobPipeline.Text.Blank
import JobPipeline.Number.Numeral

/-!
# Requests and responses

A `Request` as it arrives and a `Response` as it leaves. Header names are compared without regard to
case. The path of a request is its target up to the query or the fragment.
-/

namespace JobPipeline.Api

structure Request where
  method : String
  target : String
  headers : List (String × String)
  body : List UInt8

/-- A response; its body is text. -/
structure Response where
  status : Nat
  headers : List (String × String)
  body : String
deriving DecidableEq, Repr

/-- A text with its ASCII capitals lowered. -/
def lowered (s : String) : String := String.ofList (Numeral.lowerAscii s.toList)

namespace Request

def headersNamed (r : Request) (name : String) : List String :=
  (r.headers.filter fun (n, _) => lowered n = name).map Prod.snd

def header? (r : Request) (name : String) : Option String := (r.headersNamed name).head?

/-- The target without its query and fragment. -/
def path (r : Request) : String :=
  String.ofList (r.target.toList.takeWhile fun c => c ≠ '?' ∧ c ≠ '#')

end Request

namespace Response

def empty (status : Nat) : Response := ⟨status, [], ""⟩

def text (status : Nat) (body : String) : Response :=
  ⟨status, [("content-type", "text/plain; charset=utf-8")], body⟩

def json (status : Nat) (body : String) : Response :=
  ⟨status, [("content-type", "application/json")], body⟩

def adding (r : Response) (headers : List (String × String)) : Response :=
  { r with headers := r.headers ++ headers }

end Response

/-- Whether a character may stand in a header value that is read as text. -/
def isPlainHeaderChar (c : Char) : Bool := c == '\t' || (' ' ≤ c && c ≤ '~')

def plainHeader? (value : String) : Option String :=
  if value.toList.all isPlainHeaderChar then some value else none

/-- Whether a text may be a header value: its bytes hold no control character but the tab. -/
def isHeaderValue (value : String) : Bool :=
  value.toList.all fun c => c == '\t' || (' ' ≤ c && c.toNat ≠ 0x7F)

end JobPipeline.Api
