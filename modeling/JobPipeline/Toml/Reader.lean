import JobPipeline.Toml.Document
import JobPipeline.Toml.Scalar
import JobPipeline.Toml.Text

/-!
# Reading TOML

`Toml.read?` gives the table of a document. Arrays and inline tables may be nested 79 deep, and a
dotted key may have as many parts. An array may run over lines and hold comments and a comma at its
end; an inline table may not.
-/

namespace JobPipeline.Toml

/-- The number of levels that values and keys may have. -/
def maxDepth : Nat := 79

def key? (cs : List Char) : Option (List String × List Char) :=
  (dottedKey? (cs.length + 1) cs).filter fun (keys, _) => keys.length ≤ maxDepth

/-- Defines the key at the end of a path. -/
def definePath (path : List String) (value : Setting) (es : Entries) : Option Entries :=
  match path.getLast? with
  | none => none
  | some key => Entries.define key value path.dropLast es

/-- The rest of an array behind its bracket or behind an element. -/
def arrayFrom (value : List Char → Option (Setting × List Char)) :
    Nat → List Setting → List Char → Option (Setting × List Char)
  | 0, _, _ => none
  | bound + 1, items, cs => do
    let lines (cs : List Char) : Option (List Char) := skipLines (cs.length + 1) cs
    let closed (items : List Setting) : Setting := .list items.reverse
    match ← lines cs with
    | ']' :: rest => return (closed items, rest)
    | cs =>
      let (item, rest) ← value cs
      match ← lines rest with
      | ',' :: rest => arrayFrom value bound (item :: items) rest
      | ']' :: rest => return (closed (item :: items), rest)
      | _ => none

/-- The rest of an inline table from the start of a key. -/
def inlineFrom (value : List Char → Option (Setting × List Char)) :
    Nat → Entries → List Char → Option (Setting × List Char)
  | 0, _, _ => none
  | bound + 1, es, cs => do
    let (path, rest) ← key? cs
    match rest with
    | '=' :: rest =>
      let (v, rest) ← value (skipSpace rest)
      let es ← definePath path v es
      match skipSpace rest with
      | ',' :: rest => inlineFrom value bound es rest
      | '}' :: rest => return (.table (settings es), rest)
      | _ => none
    | _ => none

/-- Reads a value whose arrays and tables may be nested so deep. -/
def value : Nat → List Char → Option (Setting × List Char)
  | _, '"' :: rest => (string? ('"' :: rest)).map fun (s, rest) => (.text s, rest)
  | _, '\'' :: rest => (string? ('\'' :: rest)).map fun (s, rest) => (.text s, rest)
  | 0, '[' :: _ => none
  | 0, '{' :: _ => none
  | depth + 1, '[' :: rest => arrayFrom (value depth) (rest.length + 1) [] rest
  | depth + 1, '{' :: rest => match skipSpace rest with
    | '}' :: rest => some (.table [], rest)
    | rest => inlineFrom (value depth) (rest.length + 1) [] rest
  | _, cs => scalar cs

/-- Where the reader of a document stands: what it has found, and the table that keys go into. -/
structure State where
  root : Entries
  current : List String

/-- A header, from behind its first bracket. -/
def State.header (s : State) (cs : List Char) : Option (State × List Char) := do
  let isArray := cs.head? == some '['
  let (path, rest) ← key? (if isArray then cs.drop 1 else cs)
  let key ← path.getLast?
  let define := if isArray then Entries.element key else Entries.header key
  let root ← Entries.within define path.dropLast s.root
  match rest with
  | ']' :: ']' :: rest => if isArray then return (⟨root, path⟩, rest) else none
  | ']' :: rest => if isArray then none else return (⟨root, path⟩, rest)
  | _ => none

/-- A key and its value. -/
def State.assignment (s : State) (cs : List Char) : Option (State × List Char) := do
  let (path, rest) ← key? cs
  match rest with
  | '=' :: rest =>
    let (v, rest) ← value maxDepth (skipSpace rest)
    let root ← Entries.within (definePath path v) s.current s.root
    return ({ s with root }, rest)
  | _ => none

def lines : Nat → State → List Char → Option Entries
  | 0, _, _ => none
  | bound + 1, s, cs => do
    match skipSpace cs with
    | [] => return s.root
    | '\n' :: rest => lines bound s rest
    | '#' :: rest => lines bound s (← endLine ('#' :: rest))
    | '[' :: rest =>
      let (s, rest) ← s.header rest
      lines bound s (← endLine rest)
    | rest =>
      let (s, rest) ← s.assignment rest
      lines bound s (← endLine rest)

/-- The table of a document. Byte order marks in front of it do not count. -/
def read? (text : String) : Option Setting :=
  let cs := unifyLineEnds (text.toList.dropWhile (· = '\uFEFF'))
  (lines (cs.length + 1) ⟨[], []⟩ cs).map fun root => .table (settings root)

end JobPipeline.Toml
