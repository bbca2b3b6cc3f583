import JobPipeline.Number.Binary64

/-!
# JSON values

A `Json` value as a free-form field holds it. Integers of 64 bits, signed or unsigned, stay exact;
every other number is a binary64 one. An object keeps its fields sorted by key, each key once
(`insertField`), so that two texts which differ in the order of their keys are the same value.
-/

namespace JobPipeline

/-- The integers a JSON document keeps exactly. -/
abbrev Json.Integer := { n : Int // -9223372036854775808 ≤ n ∧ n < 18446744073709551616 }

/-- A free-form JSON value. -/
inductive Json
  | null
  | bool (b : Bool)
  | integer (n : Json.Integer)
  | real (x : Binary64)
  | string (s : String)
  | array (items : List Json)
  | object (fields : List (String × Json))
deriving Repr

namespace Json

/-- Puts a field at its place in key order; an earlier field of the same key is replaced. -/
def insertField (key : String) (value : Json) : List (String × Json) → List (String × Json)
  | [] => [(key, value)]
  | (k, v) :: rest =>
    if key < k then (key, value) :: (k, v) :: rest
    else if key = k then (key, value) :: rest
    else (k, v) :: insertField key value rest

/-- The object of a field list in writing order: of several fields of one key the last
one counts. -/
def ofFields (fields : List (String × Json)) : Json :=
  .object (fields.foldl (fun sorted (k, v) => insertField k v sorted) [])

def ofNat (n : Nat) (h : n < 18446744073709551616 := by decide) : Json := .integer ⟨n, by omega⟩

def isNull : Json → Bool
  | .null => true
  | _ => false

end Json
end JobPipeline
