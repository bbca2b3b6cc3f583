import JobPipeline.Config.Tree
import JobPipeline.Text.Lower

/-!
# Settings in the environment

A variable takes part in the configuration if its name starts with the prefix and an underscore, in
any case. What follows is the place of the setting, in lower case, with two underscores for every
step down. Its value is a truth value, an integer or a decimal number if it reads as one, and else a
text.
-/

namespace JobPipeline

/-- The variables of an environment, each name once. -/
abbrev Environment := List (String × String)

namespace Environment

/-- Points in the place of double underscores. -/
def dotted : List Char → List Char
  | '_' :: '_' :: rest => '.' :: dotted rest
  | c :: rest => c :: dotted rest
  | [] => []

/-- What follows some characters at the front. -/
def dropFront? : List Char → List Char → Option (List Char)
  | [], rest => some rest
  | c :: cs, d :: rest => if c = d then dropFront? cs rest else none
  | _ :: _, [] => none

/-- The place that the name of a variable stands for, if it has the prefix. -/
def place? (namePrefix name : String) : Option String :=
  (dropFront? (lower (namePrefix ++ "_")).toList (lower name).toList).map fun rest =>
    String.ofList (dotted rest)

/-- The setting that the value of a variable stands for. -/
def setting (value : String) : Setting :=
  let word := lower value
  if word = "true" then .bool true
  else if word = "false" then .bool false
  else match Numeral.int64? value with
    | some n => .integer n
    | none => match Numeral.decimal? value with
      | some x => .real x
      | none => .text value

/-- The tree of settings with those of an environment on top. -/
def layer (namePrefix : String) (env : Environment) (root : Setting) : Setting :=
  env.foldl (fun root (name, value) =>
    match place? namePrefix name with
    | some place => Setting.assignNamed place (setting value) root
    | none => root) root

end Environment
end JobPipeline
