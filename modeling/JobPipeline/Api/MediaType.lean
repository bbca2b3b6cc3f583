import JobPipeline.Api.Message

/-!
# Media types

`MediaType.parse?` reads a content type: a type and a subtype of token characters, then parameters.
The last `+` of a subtype, unless it comes first, separates a suffix from it. Spaces may stand in
front of a parameter and after a quoted value, and nowhere else.

A request body counts as JSON if its type is `application` and its subtype or its suffix is `json`.
-/

namespace JobPipeline.Api

/-- A media type without its parameters, in lower case. -/
structure MediaType where
  type : String
  subtype : String
  suffix : Option String
deriving DecidableEq, Repr

namespace MediaType

def isToken (c : Char) : Bool := c.isAlphanum || "!#$%&'+-.^_\x60|~".toList.contains c

/-- The characters that may stand between quotes. -/
def isQuotable (c : Char) : Bool := ' ' ≤ c && c ≠ '\x7f'

/-- Where the reader of parameters stands: in front of a name, inside one, in front of a value,
inside one, inside a quoted one (right behind the quote or further on), or behind a quoted one. -/
inductive ParameterState
  | before
  | name
  | value
  | token
  | quoteOpened
  | quoted
  | after
deriving DecidableEq, Repr

/-- Whether what follows the semicolon is a list of parameters. A quote right behind the opening one
is an ordinary character. -/
def parameters : ParameterState → List Char → Bool
  | .before, [] => true
  | .token, [] => true
  | .value, [] => true
  | .after, [] => true
  | _, [] => false
  | .before, c :: rest =>
    if c = ' ' then parameters .before rest else isToken c && parameters .name rest
  | .name, c :: rest =>
    if c = '=' then parameters .value rest else isToken c && parameters .name rest
  | .value, c :: rest =>
    if c = '"' then parameters .quoteOpened rest else isToken c && parameters .token rest
  | .token, c :: rest =>
    if c = ';' then parameters .before rest else isToken c && parameters .token rest
  | .quoteOpened, c :: rest => isQuotable c && parameters .quoted rest
  | .quoted, c :: rest =>
    if c = '"' then parameters .after rest else isQuotable c && parameters .quoted rest
  | .after, c :: rest =>
    if c = ';' then parameters .before rest else c = ' ' && parameters .after rest

/-- A subtype cut at its last `+`, if it has one behind its first character. -/
def splitSuffix (cs : List Char) : List Char × Option (List Char) :=
  let back := cs.reverse.takeWhile (· ≠ '+')
  let front := cs.take (cs.length - back.length - 1)
  if back.length = cs.length ∨ front.isEmpty then (cs, none) else (front, some back.reverse)

def parse? (text : String) : Option MediaType :=
  let cs := (lowered text).toList
  let type := cs.takeWhile isToken
  match cs.dropWhile isToken with
  | '/' :: rest =>
    let subtype := rest.takeWhile isToken
    let rest := rest.dropWhile isToken
    let (subtype, suffix) := splitSuffix subtype
    let whole : MediaType := ⟨String.ofList type, String.ofList subtype, suffix.map String.ofList⟩
    if type.isEmpty then none
    else match rest with
      | [] => some whole
      | ';' :: rest => if subtype.isEmpty || !parameters .before rest then none else some whole
      | _ => none
  | _ => none

/-- Whether bodies of this type are JSON. -/
def isJson (m : MediaType) : Bool :=
  m.type = "application" && (m.subtype = "json" || m.suffix = some "json")

end MediaType

/-- Whether a request says that its body is JSON. -/
def Request.isJson (r : Request) : Bool :=
  (((r.header? "content-type").bind plainHeader?).bind MediaType.parse?).any MediaType.isJson

end JobPipeline.Api
