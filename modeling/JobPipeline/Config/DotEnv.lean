import JobPipeline.Config.Environment
import JobPipeline.Text.Alphanumeric
import JobPipeline.Text.Blank

/-!
# Files of variables

A file of variables holds lines `KEY=VALUE`, blank lines, and comments behind a `#`. A value may be
quoted, singly for literal text and doubly for text with escapes, and may refer to variables that
are known already. A quote that is open at the end of a line runs on into the next.

`DotEnv.load` adds the variables of a file to an environment, in order. A variable that the
environment has is not changed. At the first malformed line the rest of the file is given up.
-/

namespace JobPipeline.DotEnv

/-! ## Logical lines -/

/-- Where a line stands: outside quotes, right after a blank there, inside quotes, or after a
backslash in any of these places. -/
inductive LineState
  | plain
  | blank
  | escape
  | single
  | singleEscape
  | double
  | doubleEscape
  | comment
deriving DecidableEq, Repr

def LineState.next (c : Char) : LineState → LineState
  | .plain =>
    if isBlank c ∧ c ≠ '\n' ∧ c ≠ '\r' then .blank
    else if c = '\\' then .escape
    else if c = '"' then .double
    else if c = '\'' then .single
    else .plain
  | .blank =>
    if c = '#' then .comment
    else if c = '\\' then .escape
    else if c = '"' then .double
    else if c = '\'' then .single
    else .plain
  | .escape => .plain
  | .single => if c = '\\' then .singleEscape else if c = '\'' then .plain else .single
  | .singleEscape => .single
  | .double => if c = '\\' then .doubleEscape else if c = '"' then .plain else .double
  | .doubleEscape => .double
  | .comment => .comment

/-- Goes through a physical line; a comment is cut off. Gives the characters passed, last first. -/
def scan : LineState → List Char → List Char → LineState × List Char
  | state, passed, [] => (state, passed)
  | state, passed, c :: rest =>
    match state.next c with
    | .comment => (.comment, passed)
    | state => scan state (c :: passed) rest

/-- The physical lines of a text, each with its line end. -/
def physicalLines : List Char → List (List Char)
  | [] => []
  | '\n' :: rest => ['\n'] :: physicalLines rest
  | c :: rest => match physicalLines rest with
    | [] => [[c]]
    | line :: lines => (c :: line) :: lines

/-- The characters of a line, last first, without its line end. -/
def dropLineEnd : List Char → List Char
  | '\n' :: '\r' :: rest => rest
  | '\n' :: rest => rest
  | cs => cs

/-- The logical lines of a text, given what has been read of the first one. A line that never ends
is `none`, and the last one. -/
def logicalLines : LineState → List Char → List (List Char) → List (Option (List Char))
  | state, _, [] => if state = .plain then [] else [none]
  | state, passed, line :: lines =>
    if (trimStart (passed.reverse ++ line)).head? = some '#' then
      some [] :: logicalLines .plain [] lines
    else
      let (state, passed) := scan state passed line
      match state with
      | .plain => some (dropLineEnd passed).reverse :: logicalLines .plain [] lines
      | .comment => some passed.reverse :: logicalLines .plain [] lines
      | state => logicalLines state passed lines

/-! ## Values -/

/-- Where a value stands: in plain text, inside quotes, inside the name of a variable, or
behind its end. -/
inductive ValueState
  | plain
  | single
  | double
  /-- After a backslash, inside double quotes or not. -/
  | escape (quoted : Bool)
  /-- After a dollar, inside double quotes or not, with the name so far, last first. -/
  | name (quoted : Bool) (name : List Char)
  /-- The same between braces. -/
  | braced (quoted : Bool) (name : List Char)
  | ended
deriving DecidableEq, Repr

/-- The text after a quote has been opened or closed, or not. -/
def textState (quoted : Bool) : ValueState := if quoted then .double else .plain

/-- The characters of a variable's value; an unknown variable has none. -/
def valueOf (env : Environment) (name : List Char) : List Char :=
  ((env.lookup (String.ofList name.reverse)).getD "").toList

/-- Reads a value; `out` holds what it has come to so far, last first. -/
def valueFrom (env : Environment) : ValueState → List Char → List Char → Option (List Char)
  | .plain, out, [] => some out.reverse
  | .ended, out, [] => some out.reverse
  | .escape false, out, [] => some out.reverse
  | .name false name, out, [] => some (out.reverse ++ valueOf env name)
  | _, _, [] => none
  | .ended, out, c :: rest =>
    if c = ' ' ∨ c = '\t' then valueFrom env .ended out rest
    else if c = '#' then some out.reverse
    else none
  | .escape quoted, out, c :: rest =>
    if c ∈ ['\\', '\'', '"', '$', ' '] then valueFrom env (textState quoted) (c :: out) rest
    else if c = 'n' then valueFrom env (textState quoted) ('\n' :: out) rest
    else none
  | .single, out, c :: rest =>
    if c = '\'' then valueFrom env .plain out rest else valueFrom env .single (c :: out) rest
  | .name quoted name, out, c :: rest =>
    if isAlphanumeric c then valueFrom env (.name quoted (c :: name)) out rest
    else if c = '{' ∧ name = [] then valueFrom env (.braced quoted []) out rest
    else
      let out := (valueOf env name).reverse ++ out
      if c = '$' then valueFrom env (.name quoted []) out rest
      else valueFrom env (textState quoted) (c :: out) rest
  | .braced quoted name, out, c :: rest =>
    if c = '}' then valueFrom env (textState quoted) ((valueOf env name).reverse ++ out) rest
    else valueFrom env (.braced quoted (c :: name)) out rest
  | .double, out, c :: rest =>
    if c = '$' then valueFrom env (.name true []) out rest
    else if c = '"' then valueFrom env .plain out rest
    else if c = '\\' then valueFrom env (.escape true) out rest
    else valueFrom env .double (c :: out) rest
  | .plain, out, c :: rest =>
    if c = '$' then valueFrom env (.name false []) out rest
    else if c = '\'' then valueFrom env .single out rest
    else if c = '"' then valueFrom env .double out rest
    else if c = '\\' then valueFrom env (.escape false) out rest
    else if c = ' ' ∨ c = '\t' then valueFrom env .ended out rest
    else valueFrom env .plain (c :: out) rest

/-! ## Lines -/

def key? (cs : List Char) : Option (String × List Char) :=
  let isKeyChar (c : Char) : Bool := c.isAlphanum || c == '_' || c == '.'
  match cs with
  | c :: _ =>
    if c.isAlpha || c == '_' then
      some (String.ofList (cs.takeWhile isKeyChar), trimStart (cs.dropWhile isKeyChar))
    else none
  | [] => none

def assigned? (env : Environment) : List Char → Option String
  | '=' :: cs =>
    let cs := trimStart cs
    if cs.isEmpty ∨ cs.head? = some '#' then some ""
    else (valueFrom env .plain [] cs).map String.ofList
  | _ => none

/-- Reads a line: nothing, or a key and its value. The word `export` may stand in front. -/
def line? (env : Environment) (cs : List Char) : Option (Option (String × String)) :=
  let cs := trimStart (trimEnd cs)
  if cs.isEmpty ∨ cs.head? = some '#' then some none
  else do
    let (key, rest) ← key? cs
    let (key, rest) ← if key = "export" ∧ rest.head? ≠ some '=' then key? rest else some (key, rest)
    let value ← assigned? env rest
    return some (key, value)

/-- Adds the variables of logical lines to an environment, up to the first malformed line. -/
def loadLines (env : Environment) : List (Option (List Char)) → Environment
  | [] => env
  | none :: _ => env
  | some line :: lines => match line? env line with
    | none => env
    | some none => loadLines env lines
    | some (some (key, value)) =>
      loadLines (if (env.lookup key).isSome then env else env ++ [(key, value)]) lines

/-- Adds the variables of a file to an environment. A byte order mark in front of the text does
not count. -/
def load (env : Environment) (text : String) : Environment :=
  let cs := match text.toList with
    | '\uFEFF' :: rest => rest
    | cs => cs
  loadLines env (logicalLines .plain [] (physicalLines cs))

end JobPipeline.DotEnv
