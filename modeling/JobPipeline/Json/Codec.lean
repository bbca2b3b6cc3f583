import JobPipeline.Json.Printer
import JobPipeline.Json.Reader

/-!
# Typed JSON

A `Codec` is one type's JSON form in both directions. Codecs of records come from one list of
fields: printing shows the fields in that order, reading takes an object (fields in any order,
unknown ones passed over, none of the known ones twice) or an array of the values in that order. A
field says itself what stands in for it when an object lacks it (`absent`) or an array ends before
it (`short`).

`Codec.decode?` reads a whole document, `Codec.decodePrefix` a document that may be followed by
anything.
-/

namespace JobPipeline.Json

open Utf8 (Symbol)

/-- Reads a value from symbols, given a bound on their number and the nesting still allowed. -/
abbrev Reader (α : Type) := (bound depth : Nat) → List Symbol → Result α

/-- The JSON form of a type. -/
structure Codec (α : Type) where
  print : α → List Char
  read : Reader α

namespace Codec

variable {α β : Type}

def encode (c : Codec α) (a : α) : String := String.ofList (c.print a)

/-- Reads a value at the front of a document. -/
def decodePrefix (c : Codec α) (input : List Symbol) : Result α :=
  c.read (input.length + 1) maxDepth input

/-- Reads a whole document, spaces around the value allowed. -/
def decodeSymbols? (c : Codec α) (input : List Symbol) : Option α :=
  match c.decodePrefix input with
  | .ok (a, rest) => if (skipSpace rest).isEmpty then some a else none
  | .error _ => none

/-- Reads a whole text. -/
def decode? (c : Codec α) (text : String) : Option α := c.decodeSymbols? (Utf8.symbols text)

/-- Reads a whole document given as bytes. -/
def decodeBytes? (c : Codec α) (bytes : List UInt8) : Option α :=
  c.decodeSymbols? (Utf8.decode bytes)

/-- The codec of a type that is another one under a different name. -/
def via (c : Codec α) (make : α → β) (view : β → α) : Codec β where
  print b := c.print (view b)
  read bound depth input := (c.read bound depth input).map fun (a, rest) => (make a, rest)

def free : Codec Json where
  print := Json.print
  read bound depth input := value bound depth input

def bool : Codec Bool where
  print b := (Json.bool b).print
  read _ _ input := match scalar (skipSpace input) with
    | .ok (.bool b, rest) => .ok (b, rest)
    | _ => .error (clash input)

def text : Codec String where
  print := printString
  read _ _ input := match scalar (skipSpace input) with
    | .ok (.string s, rest) => .ok (s, rest)
    | _ => .error (clash input)

/-- Natural numbers below `2 ^ bits`. -/
def natural (bits : Nat) : Codec Nat where
  print n := Nat.toDigits 10 n
  read _ _ input := match scalar (skipSpace input) with
    | .ok (.integer n, rest) =>
      if 0 ≤ n.val ∧ n.val < Nat.pow 2 bits then .ok (n.val.toNat, rest) else .error .mismatch
    | _ => .error (clash input)

def word16 : Codec UInt16 := (natural 16).via UInt16.ofNat UInt16.toNat

def word32 : Codec UInt32 := (natural 32).via UInt32.ofNat UInt32.toNat

def word64 : Codec UInt64 := (natural 64).via UInt64.ofNat UInt64.toNat

/-- A value that may be `null`. -/
def optional (c : Codec α) : Codec (Option α) where
  print
    | none => "null".toList
    | some a => c.print a
  read bound depth input := match skipSpace input with
    | .char 'n' :: rest => (Json.word "ull".toList rest).map fun rest => (none, rest)
    | rest => (c.read bound depth rest).map fun (a, rest) => (some a, rest)

def list (c : Codec α) : Codec (List α) where
  print as := printArray (as.map c.print)
  read bound depth input := match skipSpace input, depth with
    | .char '[' :: _, 0 => .error .malformed
    | .char '[' :: rest, depth + 1 =>
      let element (items : List α) (input : List Symbol) : Result (List α) :=
        (c.read bound depth input).map fun (a, rest) => (a :: items, rest)
      (elements element bound true [] rest).map fun (items, rest) => (items.reverse, rest)
    | rest, _ => .error (clash rest)

/-- The value a name stands for. -/
def named? (all : List α) (name : α → String) (s : String) : Option α :=
  all.find? fun a => name a = s

/-- A type whose values are written as names: a string, or an object with the name as its only key
and the value `null`. -/
def names (all : List α) (name : α → String) : Codec α where
  print a := printString (name a)
  read _ depth input := match skipSpace input, depth with
    | .char '{' :: _, 0 => .error .malformed
    | .char '{' :: rest, _ + 1 =>
      match text.read 0 0 rest with
      | .error f => .error f
      | .ok (s, rest) => match named? all name s with
        | none => .error .mismatch
        | some a => match colon rest with
          | .error f => .error f
          | .ok rest => match scalar (skipSpace rest) with
            | .ok (.null, rest) => match skipSpace rest with
              | .char '}' :: rest => .ok (a, rest)
              | _ => .error .malformed
            | _ => .error (clash rest)
    | rest, _ => match text.read 0 0 rest with
      | .error _ => .error (clash rest)
      | .ok (s, rest) => match named? all name s with
        | none => .error .mismatch
        | some a => .ok (a, rest)

end Codec

/-! ## Records -/

/-- One field of a record. -/
structure Field (α : Type) where
  name : String
  codec : Codec α
  /-- What stands in for the field when an object lacks it. -/
  absent : Option α := none
  /-- What stands in for the field when an array ends before it. -/
  short : Option α := none
  /-- The values that printing leaves out. -/
  hidden : α → Bool := fun _ => false

/-- A field that must be there. -/
def Field.required {α : Type} (name : String) (codec : Codec α) : Field α := { name, codec }

/-- A field that may be left out of an object and of the end of an array. -/
def Field.withDefault {α : Type} (name : String) (codec : Codec α) (default : α) : Field α :=
  { name, codec, absent := some default, short := some default }

/-- A field that is absent from an object as much as `null`. -/
def Field.nullable {α : Type} (name : String) (codec : Codec α) : Field (Option α) :=
  { name, codec := codec.optional, absent := some none }

/-- The fields of a record, in order. -/
inductive Fields : List Type → Type 1
  | nil : Fields []
  | cons {α : Type} {αs : List Type} (field : Field α) (fields : Fields αs) : Fields (α :: αs)

@[reducible] def Values : List Type → Type
  | [] => Unit
  | α :: αs => α × Values αs

/-- A value for each field that has been read. -/
@[reducible] def Slots : List Type → Type
  | [] => Unit
  | α :: αs => Option α × Slots αs

namespace Fields

def none : {αs : List Type} → Fields αs → Slots αs
  | [], .nil => ()
  | _ :: _, .cons _ fields => (Option.none, fields.none)

/-- Reads the member of an object that has the given key. A known field may come once; an unknown
one is passed over. -/
def member (bound depth : Nat) :
    {αs : List Type} → Fields αs → String → Slots αs → List Symbol → Result (Slots αs)
  | [], .nil, _, slots, input =>
    match colon input with
    | .error f => .error f
    | .ok rest => (skip bound rest).map fun rest => (slots, rest)
  | _ :: _, .cons field fields, key, (slot, slots), input =>
    if key = field.name then
      match slot with
      | some _ => .error .mismatch
      | Option.none => match colon input with
        | .error f => .error f
        | .ok rest => (field.codec.read bound depth rest).map fun (a, rest) =>
          ((some a, slots), rest)
    else (fields.member bound depth key slots input).map fun (slots, rest) => ((slot, slots), rest)

/-- The values of an object whose members have all been read. -/
def complete : {αs : List Type} → Fields αs → Slots αs → Option (Values αs)
  | [], .nil, _ => some ()
  | _ :: _, .cons field fields, (slot, slots) =>
    match slot <|> field.absent, fields.complete slots with
    | some a, some as => some (a, as)
    | _, _ => Option.none

/-- The values of fields that an array does not reach. -/
def beyond : {αs : List Type} → Fields αs → Option (Values αs)
  | [], .nil => some ()
  | _ :: _, .cons field fields =>
    match field.short, fields.beyond with
    | some a, some as => some (a, as)
    | _, _ => Option.none

/-- The end of an array that ends before some fields. -/
def ended {αs : List Type} (fields : Fields αs) (rest : List Symbol) : Result (Values αs) :=
  match fields.beyond with
  | some as => .ok (as, rest)
  | Option.none => .error .mismatch

/-- The values of an array, from after its bracket or from after a value. -/
def positional (bound depth : Nat) :
    {αs : List Type} → Fields αs → Bool → List Symbol → Result (Values αs)
  | [], .nil, _, input => match skipSpace input with
    | .char ']' :: rest => .ok ((), rest)
    | _ => .error .malformed
  | _ :: _, .cons field fields, first, input =>
    let next (input : List Symbol) : Result (Values _) :=
      match field.codec.read bound depth input with
      | .error f => .error f
      | .ok (a, rest) => (fields.positional bound depth false rest).map fun (as, rest) =>
        ((a, as), rest)
    match skipSpace input with
    | [] => .error .malformed
    | .char ']' :: rest => (Fields.cons field fields).ended rest
    | c :: rest =>
      if first then next (c :: rest)
      else if c = .char ',' then
        match skipSpace rest with
        | .char ']' :: _ => .error .malformed
        | rest => next rest
      else .error .malformed

/-- The texts of the fields that are shown. -/
def print : {αs : List Type} → Fields αs → Values αs → List (List Char)
  | [], .nil, _ => []
  | _ :: _, .cons field fields, (a, as) =>
    if field.hidden a then fields.print as
    else printField field.name (field.codec.print a) :: fields.print as

end Fields

/-- Reads the braces and members of an object of the given fields. -/
def readObject {αs : List Type} (fields : Fields αs) (bound depth : Nat) (rest : List Symbol) :
    Result (Values αs) :=
  match members stringBody (fields.member bound depth) bound true fields.none rest with
  | .error f => .error f
  | .ok (slots, rest) => match fields.complete slots with
    | some as => .ok (as, rest)
    | none => .error .mismatch

/-- The codec of a record, from its fields and the two ways between the record and its values. -/
def Codec.record {αs : List Type} {τ : Type} (fields : Fields αs) (make : Values αs → τ)
    (view : τ → Values αs) :
    Codec τ where
  print t := printObject (fields.print (view t))
  read bound depth input :=
    let made (r : Result (Values αs)) : Result τ := r.map fun (as, rest) => (make as, rest)
    match skipSpace input, depth with
    | .char '{' :: _, 0 => .error .malformed
    | .char '[' :: _, 0 => .error .malformed
    | .char '{' :: rest, depth + 1 => made (readObject fields bound depth rest)
    | .char '[' :: rest, depth + 1 => made (fields.positional bound depth true rest)
    | rest, _ => .error (clash rest)

end JobPipeline.Json
