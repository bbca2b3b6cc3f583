import JobPipeline.Number.Numeral
import JobPipeline.Text.Alphanumeric
import JobPipeline.Text.Blank

/-!
# Log filters

A filter is a list of directives with commas between them. A directive is a level, a target, or a
target with a level behind an equals sign; behind the target a span may be named between brackets,
with fields between braces. A level is a word or a number; a directive without one means the most
verbose.

`maxLevel` is the most verbose level that any directive asks for. A directive that looks at the
values of fields asks for everything.
-/

namespace JobPipeline.Log

/-- The levels, the most verbose last. -/
inductive Level
  | off
  | error
  | warn
  | info
  | debug
  | trace
deriving DecidableEq, Repr

namespace Level

/-- All levels, each at the position of its number. -/
def all : List Level := [.off, .error, .warn, .info, .debug, .trace]

def name : Level → String
  | .off => "off"
  | .error => "error"
  | .warn => "warn"
  | .info => "info"
  | .debug => "debug"
  | .trace => "trace"

/-- How verbose a level is. -/
def rank : Level → Nat
  | .off => 0
  | .error => 1
  | .warn => 2
  | .info => 3
  | .debug => 4
  | .trace => 5

def max (a b : Level) : Level := if a.rank < b.rank then b else a

/-- The level of a word in any case, or of a number. -/
def parse? (text : String) : Option Level :=
  match Numeral.unsigned? 64 text with
  | some n => all[n]?
  | none => all.find? fun l => l.name = String.ofList (Numeral.lowerAscii text.toList)

end Level

/-- A directive, as far as it decides about levels. -/
structure Directive where
  level : Level
  /-- It looks at the values of fields. -/
  readsValues : Bool
deriving DecidableEq, Repr

namespace Directive

/-- The level behind an equals sign; none is the most verbose. -/
def levelAfter? (cs : List Char) : Option Level :=
  if cs.isEmpty then some .trace else Level.parse? (String.ofList cs)

/-- A span from behind its bracket: its name, then perhaps fields between braces. Gives the
characters of the fields and what follows. -/
def span? (cs : List Char) : Option (List Char × List Char) :=
  let inName (c : Char) : Bool := c ≠ ']' && c ≠ '{'
  match cs.dropWhile inName with
  | ']' :: rest => some ([], rest)
  | '{' :: rest =>
    let fields := rest.takeWhile (· ≠ '}')
    match rest.dropWhile (· ≠ '}') with
    | '}' :: ']' :: rest => if fields.isEmpty then none else some (fields, rest)
    | _ => none
  | _ => none

/-- Whether a directive may start with a character. -/
def mayStart (c : Char) : Bool := isAlphanumeric c || c == '-' || c == ':' || c == '_'

/-- Reads a directive. Its parts are found with the blanks around it cut off, but a level is
what the uncut text has at the same distance from its start; so a blank in front or at the end
spoils a level. -/
def parse? (text : String) : Option Directive :=
  let uncut := text.toList
  let cs := trimEnd (trimStart uncut)
  let level? (rest : List Char) : Option Level := levelAfter? (uncut.drop (cs.length - rest.length))
  let withSpan (rest : List Char) : Option Directive := match span? rest with
    | some (fields, []) => some ⟨.trace, fields.contains '='⟩
    | some (fields, '=' :: rest) => (level? rest).map (⟨·, fields.contains '='⟩)
    | _ => none
  let inTarget (c : Char) : Bool := c ≠ '=' && c ≠ '['
  match cs with
  | [] => none
  | '[' :: rest => withSpan rest
  | c :: _ =>
    if !mayStart c then none
    else match cs.dropWhile inTarget with
      | '=' :: rest => (level? rest).map (⟨·, false⟩)
      | '[' :: rest => withSpan rest
      | _ => some ⟨(Level.parse? text).getD .trace, false⟩

end Directive

/-- The most verbose level of a filter, if all its directives are well formed. -/
def maxLevel (filter : String) : Option Level := do
  let directives ← ((filter.splitOn ",").filter (!·.isEmpty)).mapM Directive.parse?
  let levels := directives.map fun d => if d.readsValues then .trace else d.level
  return levels.foldl Level.max .off

/-- The most verbose level of the filter in force: that of the environment if there is a well-formed
one, else that of the configuration. -/
def effectiveLevel (environment : Option String) (configured : String) : Option Level :=
  match environment.bind maxLevel with
  | some level => some level
  | none => maxLevel configured

end JobPipeline.Log
