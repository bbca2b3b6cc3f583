import JobPipeline.Number.Numeral
import JobPipeline.Text.Lower

/-!
# Trees of settings

A `Setting` is a configuration value before anybody knows what type it ought to have. Layers are put
on top of each other by `Setting.put`: tables merge key by key, and any other value replaces what
stood there, an array included. A table put on something that is no table replaces it with its first
key, so an empty table leaves it alone. The case of a key does not matter: keys are kept in lower
case.

`Setting.assign` puts a value at the end of a path. Whatever the path leads through becomes the
table or the list that it has to be.
-/

namespace JobPipeline

/-- A configuration value. -/
inductive Setting
  /-- A place that a path has made and nobody has filled. -/
  | vacant
  | bool (b : Bool)
  | integer (n : Int)
  | real (x : Binary64)
  | text (s : String)
  | list (items : List Setting)
  | table (entries : List (String × Setting))
deriving Repr

/-- One step down a tree. -/
inductive PathStep
  | key (name : String)
  /-- A position in a list; a negative one counts from the end. -/
  | index (i : Int)
deriving DecidableEq, Repr

namespace Setting

/-- The entries with one key set: in its place if it is there already, else at the end. -/
def setEntry {α : Type} (key : String) (value : α) : List (String × α) → List (String × α)
  | [] => [(key, value)]
  | (k, v) :: rest => if k = key then (k, value) :: rest else (k, v) :: setEntry key value rest

/-- The entries of a table; of anything else there are none. -/
def entries : Setting → List (String × Setting)
  | .table es => es
  | _ => []

/-- The items of a list; of anything else there are none. -/
def items : Setting → List Setting
  | .list vs => vs
  | _ => []

def get? (s : Setting) (key : String) : Option Setting := s.entries.lookup key

/-- The table with the value of one key replaced. -/
def replace (key : String) (value parent : Setting) : Setting :=
  .table (setEntry (lower key) value parent.entries)

/-- What a key of a table leads to; a place that is not there is vacant. -/
def place (key : String) (parent : Setting) : Setting := (parent.get? (lower key)).getD .vacant

mutual

/-- Puts a value on top of what a key of a table has. -/
def put (key : String) : Setting → Setting → Setting
  | .table incoming, parent =>
    replace key (putAll incoming ((parent.get? (lower key)).getD (.table []))) parent
  | .vacant, parent => replace key .vacant parent
  | .bool b, parent => replace key (.bool b) parent
  | .integer n, parent => replace key (.integer n) parent
  | .real x, parent => replace key (.real x) parent
  | .text s, parent => replace key (.text s) parent
  | .list vs, parent => replace key (.list vs) parent

/-- Puts the entries of a table on top of what another one has. -/
def putAll : List (String × Setting) → Setting → Setting
  | [], target => target
  | (key, value) :: rest, target => putAll rest (put key value target)

end

/-- The position that an index means in a list of some length. -/
def position (length : Nat) : Int → Nat
  | .ofNat i => i
  | .negSucc i => length - (i + 1)

/-- The items with the one at a position changed; a list that is too short is filled up with
vacant places. -/
def changeItem (i : Nat) (change : Setting → Setting) (vs : List Setting) : List Setting :=
  let vs := vs ++ List.replicate (i + 1 - vs.length) .vacant
  vs.set i (change ((vs[i]?).getD .vacant))

/-- Puts a value at the end of a path. -/
def assign : List PathStep → Setting → Setting → Setting
  | [], value, _ => value
  | [.key name], value, root => put name value root
  | .key name :: path, value, root =>
    replace name (assign path value (root.place name)) root
  | .index i :: path, value, root =>
    .list (changeItem (position root.items.length i) (assign path value) root.items)

theorem lookup_setEntry {α : Type} (key : String) (value : α) (es : List (String × α))
    (k : String) :
    (setEntry key value es).lookup k = if k = key then some value else es.lookup k := by
  have other {a b : String} (h : ¬a = b) : (a == b) = false := by simpa using h
  induction es with
  | nil => by_cases h : k = key <;> simp [setEntry, List.lookup_cons, h, other]
  | cons e es ih =>
    obtain ⟨k', v⟩ := e
    by_cases hk : k' = key
    · subst hk
      by_cases h : k = k' <;> simp [setEntry, List.lookup_cons, h, other]
    · by_cases h : k = k'
      · subst h
        simp [setEntry, hk]
      · simp [setEntry, List.lookup_cons, hk, h, other, ih]

end Setting

/-! ## Paths in text -/

namespace PathStep

/-- Whether a character may stand in a key of a path. -/
def isKeyChar (c : Char) : Bool := c.isAlphanum || c == '_' || c == '-' || c == ' '

/-- The number between the brackets of an index; blanks may stand around it. -/
def index? (cs : List Char) : Option Int :=
  let isSpace (c : Char) : Bool := c == ' ' || c == '\t'
  let cs := ((cs.dropWhile isSpace).reverse.dropWhile isSpace).reverse
  match cs with
  | '+' :: _ => none
  | _ => Numeral.int64? (String.ofList cs)

/-- The steps that follow the first key of a path. -/
def rest? : Nat → List Char → Option (List PathStep)
  | _, [] => some []
  | 0, _ => none
  | bound + 1, '.' :: cs =>
    let key := cs.takeWhile isKeyChar
    if key.isEmpty then none
    else (rest? bound (cs.dropWhile isKeyChar)).map (.key (String.ofList key) :: ·)
  | bound + 1, '[' :: cs =>
    match index? (cs.takeWhile (· ≠ ']')), cs.dropWhile (· ≠ ']') with
    | some i, _ :: cs => (rest? bound cs).map (.index i :: ·)
    | _, _ => none
  | _, _ => none

/-- Reads a path: a key, then further keys after points and indices in brackets. -/
def path? (text : String) : Option (List PathStep) :=
  let cs := text.toList
  let key := cs.takeWhile isKeyChar
  if key.isEmpty then none
  else (rest? cs.length (cs.dropWhile isKeyChar)).map (.key (String.ofList key) :: ·)

end PathStep

/-- Puts a value at the place that a text names. A text that is no path names the key it spells. -/
def Setting.assignNamed (name : String) (value root : Setting) : Setting :=
  match PathStep.path? name with
  | some path => assign path value root
  | none => assign [.key name] value root

end JobPipeline
