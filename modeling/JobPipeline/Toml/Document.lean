import JobPipeline.Config.Tree

/-!
# TOML documents as they grow

A document defines every key once. Tables come into being in four ways, which differ in what may be
said about them later: by a header of their own, as an element of an array of tables, on the way to
a header further down, or on the way to a dotted key. A table that has been on the way to a header
may get a header later; one made by a dotted key takes further dotted keys and nothing else; an
inline table or any other value takes nothing.
-/

namespace JobPipeline.Toml

/-- How a table came into being. -/
inductive Origin
  /-- It has a header. -/
  | header
  /-- It is on the way to a header. -/
  | passed
  /-- It is on the way to a dotted key. -/
  | dotted
deriving DecidableEq, Repr

/-- What a key of a growing document stands for. -/
inductive Node
  | value (s : Setting)
  | table (origin : Origin) (entries : List (String × Node))
  /-- The elements of an array of tables. -/
  | tables (elements : List (List (String × Node)))

/-- The entries of a table. -/
abbrev Entries := List (String × Node)

namespace Entries

/-- Changes the table that keys lead to, as the path of a header does: through arrays of tables by
their last element, and making tables where there are none. -/
def within (change : Entries → Option Entries) : List String → Entries → Option Entries
  | [], es => change es
  | key :: path, es => match es.lookup key with
    | none => (within change path []).map fun t => es ++ [(key, .table .passed t)]
    | some (.value _) => none
    | some (.table origin t) => (within change path t).map fun t =>
      Setting.setEntry key (.table origin t) es
    | some (.tables elements) =>
      (within change path (elements.getLast?.getD [])).map fun t =>
        Setting.setEntry key (.tables (elements.dropLast ++ [t])) es

/-- Defines a table by its header. -/
def header (key : String) (es : Entries) : Option Entries :=
  match es.lookup key with
  | none => some (es ++ [(key, .table .header [])])
  | some (.table .passed t) => some (Setting.setEntry key (.table .header t) es)
  | some _ => none

/-- Adds an element to an array of tables. -/
def element (key : String) (es : Entries) : Option Entries :=
  match es.lookup key with
  | none => some (es ++ [(key, .tables [[]])])
  | some (.tables elements) => some (Setting.setEntry key (.tables (elements ++ [[]])) es)
  | some _ => none

/-- Defines a key of a table, behind the keys of the tables in front of it. The last of these tables
must be one made by dotted keys. -/
def define (key : String) (value : Setting) : List String → Entries → Option Entries
  | [], es => match es.lookup key with
    | none => some (es ++ [(key, .value value)])
    | some _ => none
  | k :: path, es => match es.lookup k with
    | none => (define key value path []).map fun t => es ++ [(k, .table .dotted t)]
    | some (.value _) => none
    | some (.table .header _) => none
    | some (.table .passed t) =>
      if path = [] then none
      else (define key value path t).map fun t => Setting.setEntry k (.table .passed t) es
    | some (.table .dotted t) => (define key value path t).map fun t =>
      Setting.setEntry k (.table .dotted t) es
    | some (.tables elements) =>
      if path = [] then none
      else (define key value path (elements.getLast?.getD [])).map fun t =>
        Setting.setEntry k (.tables (elements.dropLast ++ [t])) es

end Entries

mutual

/-- The setting that a node has come to be. -/
def Node.setting : Node → Setting
  | .value s => s
  | .table _ entries => .table (settings entries)
  | .tables elements => .list (tableSettings elements)

def settings : List (String × Node) → List (String × Setting)
  | [] => []
  | (key, node) :: rest => (key, node.setting) :: settings rest

def tableSettings : List (List (String × Node)) → List Setting
  | [] => []
  | entries :: rest => .table (settings entries) :: tableSettings rest

end

end JobPipeline.Toml
