import JobPipeline.Proofs.Json.Abridged
import JobPipeline.Proofs.Json.Records
import JobPipeline.Proofs.Json.Skipping

/-!
# Defaults stand in for what is missing

A record is read from an object that lacks some of its fields and has members that it does not know,
in any order. It comes to the record with the defaults of the missing fields, if they have one
(`Codec.takes_record`).

`Codec.Completes` says the same of a value and the documents that show it in part. There is one
lemma for each way to make a codec, and that of a record rests on those of its fields
(`Codec.completes_record`): so it does not matter how deep a missing field is nested.
-/

namespace JobPipeline.Json

open Utf8 (Symbol)

variable {α τ : Type} {d : Nat}

/-! ## Objects of a record -/

/-- The codec reads a text as a value. -/
def Codec.Takes (c : Codec α) (d : Nat) (t : List Char) (a : α) : Prop :=
  ∀ bound, t.length < bound → Reads (c.read bound d) t (some a)

/-- What a field comes to in an object. -/
inductive Field.Shown (d : Nat) (shown : List (String × Json)) (field : Field α) (a : α) : Prop
  | absent (gone : valuesOf field.name shown = []) (default : field.absent = some a)
  | present {w : Json} (there : valuesOf field.name shown = [w])
    (takes : field.codec.Takes d w.print a)

namespace Fields

variable {αs : List Type} {fields : Fields αs} {as : Values αs} {bound : Nat}
  {shown : List (String × Json)} {key : String} {keys : List String}

def Shown (d : Nat) (shown : List (String × Json)) :
    {αs : List Type} → Fields αs → Values αs → Prop
  | [], .nil, _ => True
  | _ :: _, .cons field fields, (a, as) => field.Shown d shown a ∧ fields.Shown d shown as

/-- What reading the member of a key does to the slots. -/
def fill : {αs : List Type} → Fields αs → Values αs → String → Slots αs → Option (Slots αs)
  | [], .nil, _, _, slots => some slots
  | _ :: _, .cons field fields, (a, as), key, (slot, slots) =>
    if key = field.name then if slot.isSome then Option.none else some (some a, slots)
    else (fields.fill as key slots).map (slot, ·)

/-- The slots after the members of some keys. -/
def filled : {αs : List Type} → Fields αs → Values αs → List String → Slots αs
  | [], .nil, _, _ => ()
  | _ :: _, .cons field fields, (a, as), keys =>
    (if field.name ∈ keys then some a else Option.none, fields.filled as keys)

/-- A member that no field wants is passed over. -/
theorem reads_unknown {v : Json} (writable : v.Writable) (enough : v.print.length < bound)
    (slots : Slots []) :
    Reads (Fields.nil.member bound d key slots) (':' :: v.print) (some slots) := by
  refine ((reads_passOver writable enough).map fun _ => slots).congr fun rest => ?_
  show Except.map _ (skip bound (printed v.print ++ rest)) = _
  rw [passOver]
  cases skip bound (printed v.print ++ rest) <;> rfl

theorem reads_member (h : fields.Shown d shown as) {v : Json} (mem : (key, v) ∈ shown)
    (writable : v.Writable) (enough : v.print.length < bound) (slots : Slots αs) :
    Reads (fields.member bound d key slots) (':' :: v.print) (fields.fill as key slots) := by
  induction fields with
  | nil => exact reads_unknown writable enough slots
  | cons field fields ih =>
    obtain ⟨a, as⟩ := as
    obtain ⟨slot, slots⟩ := slots
    obtain ⟨here, others⟩ := h
    by_cases same : key = field.name
    · have value := mem_valuesOf.2 (same ▸ mem)
      cases here with
      | absent gone => rw [gone] at value; cases value
      | present there takes =>
        rw [there, List.mem_singleton] at value
        subst same value
        rw [fill, if_pos rfl]
        exact reads_first (takes bound enough) (slot, slots)
    · rw [fill, if_neg same]
      exact ((ih others slots).map (slot, ·)).congr fun rest => member_behind same

/-! ### The slots one after the other -/

theorem filled_nil (fields : Fields αs) (as : Values αs) : fields.filled as [] = fields.none := by
  induction fields with
  | nil => rfl
  | cons field fields ih =>
    obtain ⟨a, as⟩ := as
    rw [filled, ih, if_neg List.not_mem_nil, none]

theorem filled_unknown (unknown : key ∉ fields.names) :
    fields.filled as (key :: keys) = fields.filled as keys := by
  induction fields with
  | nil => rfl
  | cons field fields ih =>
    obtain ⟨a, as⟩ := as
    obtain ⟨other, unknown⟩ := not_or.1 (List.mem_cons.not.1 unknown)
    rw [filled, filled, ih unknown]
    simp [Ne.symm other]

/-- A key fills its slot unless that is full. -/
theorem fill_filled (distinct : fields.names.Nodup) (new : key ∈ fields.names → key ∉ keys) :
    fields.fill as key (fields.filled as keys) = some (fields.filled as (key :: keys)) := by
  induction fields with
  | nil => rfl
  | cons field fields ih =>
    obtain ⟨a, as⟩ := as
    obtain ⟨apart, distinct⟩ := List.nodup_cons.1 distinct
    by_cases same : key = field.name
    · subst same
      have empty := new List.mem_cons_self
      simp [filled, fill, empty, filled_unknown apart]
    · have behind : fields.fill as key (fields.filled as keys) = some (fields.filled as _) :=
        ih distinct fun known => new (List.mem_cons_of_mem _ known)
      simp [filled, fill, same, Ne.symm same, behind]

/-- Members fill the slots of their keys, if no field comes twice. -/
theorem foldlM_fill (distinct : fields.names.Nodup)
    (once : ∀ key ∈ fields.names, keys.count key + (shown.map Prod.fst).count key ≤ 1) :
    shown.foldlM (fun slots f => fields.fill as f.1 slots) (fields.filled as keys) =
      some (fields.filled as ((shown.map Prod.fst).reverse ++ keys)) := by
  induction shown generalizing keys with
  | nil => rfl
  | cons f shown ih =>
    have new : f.1 ∈ fields.names → f.1 ∉ keys := by
      intro known
      have := once f.1 known
      rw [List.map_cons, List.count_cons_self] at this
      exact List.count_eq_zero.1 (by omega)
    have later : ∀ key ∈ fields.names,
        (f.1 :: keys).count key + (shown.map Prod.fst).count key ≤ 1 := by
      intro key known
      have := once key known
      rw [List.map_cons, List.count_cons] at this
      rw [List.count_cons]
      omega
    rw [List.foldlM_cons, fill_filled distinct new]
    simpa using ih later

/-- The fields that no member is for are completed. -/
theorem complete_filled (h : fields.Shown d shown as)
    (all : ∀ name ∈ fields.names, name ∈ keys ↔ name ∈ shown.map Prod.fst) :
    fields.complete (fields.filled as keys) = some as := by
  induction fields with
  | nil => rfl
  | cons field fields ih =>
    obtain ⟨a, as⟩ := as
    obtain ⟨here, others⟩ := h
    obtain ⟨first, rest⟩ := List.forall_mem_cons.1 all
    have slot :
        ((if field.name ∈ keys then some a else Option.none) <|> field.absent) = some a := by
      cases here with
      | absent gone default =>
        rw [if_neg (mt first.1 (valuesOf_eq_nil_iff.1 gone)), default]
        rfl
      | @present w there takes =>
        have mem := mem_valuesOf.1 (there ▸ List.mem_singleton_self w)
        rw [if_pos (first.2 (List.mem_map.2 ⟨_, mem, rfl⟩))]
        rfl
    rw [filled, complete, slot, ih others rest]

theorem Shown.once (h : fields.Shown d shown as) :
    ∀ name ∈ fields.names, (shown.map Prod.fst).count name ≤ 1 := by
  induction fields with
  | nil => exact nofun
  | cons field fields ih =>
    obtain ⟨here, others⟩ := h
    refine List.forall_mem_cons.2 ⟨?_, ih others⟩
    rw [← length_valuesOf]
    cases here with
    | absent gone => simp [gone]
    | present there => simp [there]

end Fields

/-- **A record is read from any object that shows its fields**, whatever else that has. -/
theorem Codec.takes_record {αs : List Type} {fields : Fields αs} {as : Values αs}
    {make : Values αs → τ} {view : τ → Values αs} {shown : List (String × Json)}
    (h : fields.Shown d shown as) (distinct : fields.names.Nodup)
    (writable : ∀ f ∈ shown, f.2.Writable) :
    (Codec.record fields make view).Takes (d + 1) (Json.object shown).print (make as) := by
  intro bound enough
  rw [Json.print, printFields_eq] at enough ⊢
  have few : shown.length < bound := by simpa using (items_lt_printObject _).trans enough
  have shorter : ∀ f ∈ shown, f.2.print.length < bound := fun f hf =>
    ((length_lt_printField f.1 _).trans
      (length_lt_printObject (List.mem_map.2 ⟨f, hf, rfl⟩))).trans enough
  have slots : shown.foldlM (fun slots f => fields.fill as f.1 slots) fields.none =
      some (fields.filled as (shown.map Prod.fst).reverse) := by
    rw [← Fields.filled_nil fields as, Fields.foldlM_fill distinct, List.append_nil]
    simpa using h.once
  have complete : fields.complete (fields.filled as (shown.map Prod.fst).reverse) = some as := by
    exact Fields.complete_filled h fun name _ => List.mem_reverse
  have loop := members_printed stringBody_printed
    (fun f hf => Fields.reads_member h hf (writable f hf) (shorter f hf)) few fields.none
  rw [slots] at loop
  refine .of_ok fun rest stop => ?_
  simp only [Codec.record, printObject, printed_cons, List.cons_append,
    skipSpace_char (show isSpace '{' = false by decide), readObject, loop.ok stop, complete]
  rfl

/-! ## Defaults -/

/-- The tree of a number of 64 bits. -/
def ofWord (n : UInt64) : Json := .integer ⟨n.toNat, by have := n.toNat_lt; omega⟩

open Classical in
/-- The value of a field, or its default if the field is left out. -/
noncomputable def orDefault (D : Set Path) (name : String) (default a : α) : α :=
  if [name] ∈ D then default else a

/-- A codec completes the values it reads.

  * `writable`, `distinct` — the tree of a value is a document that names no field twice.
  * `print` — its text is that of the value.
  * `takes` — a document that shows the tree but for the fields in a set of places is read as the
    value in which the defaults at these places are filled in. -/
structure Codec.Completes (c : Codec α) (d : Nat) (tree : α → Json) (fill : Set Path → α → α) :
    Prop where
  writable : ∀ a, (tree a).Writable
  distinct : ∀ a, (tree a).Distinct
  print : ∀ a, (tree a).print = c.print a
  takes : ∀ {D a w}, w.Writable → Abridged D (tree a) w → c.Takes d w.print (fill D a)

/-- The fields of a record complete their values, and have defaults. -/
inductive Fields.Completes (d : Nat) : {αs : List Type} → Fields αs →
    (Values αs → List (String × Json)) → (Set Path → Values αs → Values αs) → Prop
  | nil : Completes d .nil (fun _ => []) (fun _ _ => ())
  | cons {α : Type} {αs : List Type} {name : String} {codec : Codec α} {default : α}
    {tree : α → Json} {fill : Set Path → α → α} {fields : Fields αs}
    {trees : Values αs → List (String × Json)} {fills : Set Path → Values αs → Values αs}
    (first : codec.Completes d tree fill) (others : Completes d fields trees fills) :
    Completes d (.cons (.withDefault name codec default) fields)
      (fun (a, as) => (name, tree a) :: trees as)
      (fun D (a, as) => (orDefault D name default (fill (within name D) a), fills D as))

namespace Fields.Completes

variable {αs : List Type} {fields : Fields αs} {trees : Values αs → List (String × Json)}
  {fills : Set Path → Values αs → Values αs}

theorem writable (h : fields.Completes d trees fills) (as : Values αs) :
    ∀ f ∈ trees as, f.2.Writable := by
  induction h with
  | nil => exact nofun
  | cons first others ih => exact List.forall_mem_cons.2 ⟨first.writable as.1, ih as.2⟩

theorem distinct (h : fields.Completes d trees fills) (as : Values αs) :
    ∀ f ∈ trees as, f.2.Distinct := by
  induction h with
  | nil => exact nofun
  | cons first others ih => exact List.forall_mem_cons.2 ⟨first.distinct as.1, ih as.2⟩

theorem names (h : fields.Completes d trees fills) (as : Values αs) :
    (trees as).map Prod.fst = fields.names := by
  induction h with
  | nil => rfl
  | cons first others ih => exact congrArg (List.cons _) (ih as.2)

theorem print (h : fields.Completes d trees fills) (as : Values αs) :
    printFields (trees as) = fields.print as := by
  induction h with
  | nil => rfl
  | cons first others ih =>
    obtain ⟨a, as⟩ := as
    rw [printFields, ih, first.print]
    rfl

theorem shown (h : fields.Completes d trees fills) {D : Set Path} {as : Values αs}
    {shown : List (String × Json)} (writable : ∀ f ∈ shown, f.2.Writable)
    (part : AbridgedFields D shown (trees as)) : fields.Shown d shown (fills D as) := by
  induction h with
  | nil => trivial
  | @cons _ _ name _ _ _ _ _ _ _ first others ih =>
    obtain ⟨a, as⟩ := as
    obtain ⟨gone, kept, part⟩ := part
    refine ⟨?_, ih part⟩
    by_cases out : [name] ∈ D
    · rw [orDefault, if_pos out]
      exact .absent (gone out) rfl
    · obtain ⟨w, there, part⟩ := kept out
      have mem := mem_valuesOf.1 (there ▸ List.mem_singleton_self w)
      rw [orDefault, if_neg out]
      exact .present there (first.takes (writable _ mem) part)

end Fields.Completes

namespace Codec

/-- **A record whose fields have defaults is read from any document that shows it in part**, as the
record with the defaults of the fields that are gone. -/
theorem completes_record {αs : List Type} {fields : Fields αs} {make : Values αs → τ}
    {view : τ → Values αs} {trees : Values αs → List (String × Json)}
    {fills : Set Path → Values αs → Values αs} {tree : τ → Json} {fill : Set Path → τ → τ}
    (h : fields.Completes d trees fills) (distinct : fields.names.Nodup)
    (tree_eq : ∀ t, tree t = .object (trees (view t)))
    (fill_eq : ∀ D t, fill D t = make (fills D (view t))) :
    (Codec.record fields make view).Completes (d + 1) tree fill where
  writable t := tree_eq t ▸ .object (h.writable (view t))
  distinct t := tree_eq t ▸ .object (h.names (view t) ▸ distinct) (h.distinct (view t))
  print t := by
    rw [tree_eq, Json.print, h.print]
    rfl
  takes {D t w} writable part := by
    rw [tree_eq] at part
    rw [fill_eq]
    obtain ⟨shown, rfl, part⟩ := part
    rw [writable_object_iff] at writable
    exact takes_record (h.shown writable part) distinct writable

/-! ### Values that are no objects -/

/-- What is no object is read as it is. -/
theorem completes_whole {c : Codec α} {tree : α → Json} (writable : ∀ a, (tree a).Writable)
    (whole : ∀ a fields, tree a ≠ .object fields) (print : ∀ a, (tree a).print = c.print a)
    (rereads : ∀ a, c.Rereads d a (some a)) : c.Completes d tree fun _ a => a where
  writable := writable
  distinct a := .other (whole a)
  print := print
  takes {D a w} _ part := by
    rw [part.eq (whole a), print]
    exact (rereads a).reads

theorem completes_text : text.Completes d .string fun _ s => s :=
  completes_whole .string (fun _ => nofun) (fun _ => rfl) rereads_text

theorem completes_bool : bool.Completes d .bool fun _ b => b :=
  completes_whole .bool (fun _ => nofun) (fun _ => rfl) rereads_bool

theorem completes_texts : (list text).Completes (d + 1) (fun ss => .array (ss.map .string))
    fun _ ss => ss := by
  refine completes_whole (fun ss => .array (List.forall_mem_map.2 fun s _ => .string s))
    (fun _ => nofun) (fun ss => ?_) fun ss => ?_
  · rw [Json.print, printItems_eq, List.map_map]
    rfl
  · simpa using rereads_list (p := fun _ => True) (g := id) fun s (_ : s ∈ ss) => rereads_text s

/-- Numbers of up to 64 bits. -/
theorem completes_word {c : Codec α} {size : α → UInt64}
    (print : ∀ a, c.print a = Nat.toDigits 10 (size a).toNat)
    (rereads : ∀ a, c.Rereads d a (some a)) :
    c.Completes d (fun a => ofWord (size a)) fun _ a => a := by
  refine completes_whole (fun _ => .integer _) (fun _ => nofun) (fun a => ?_) rereads
  rw [print, ofWord, Json.print, printInt, if_neg (by simp), Int.natAbs_natCast]

theorem completes_word16 : word16.Completes d (fun n => ofWord n.toUInt64) fun _ n => n :=
  completes_word (fun _ => rfl) rereads_word16

theorem completes_word32 : word32.Completes d (fun n => ofWord n.toUInt64) fun _ n => n :=
  completes_word (fun _ => rfl) rereads_word32

theorem completes_word64 : word64.Completes d ofWord fun _ n => n :=
  completes_word (fun _ => rfl) rereads_word64

/-- Names of values that are all different. -/
theorem completes_names {all : List α} {name : α → String} (mem : ∀ a, a ∈ all)
    (apart : ∀ a b, name b = name a → b = a) :
    (names all name).Completes d (fun a => .string (name a)) fun _ a => a :=
  completes_whole (fun _ => .string _) (fun _ => nofun) (fun _ => rfl)
    fun a => rereads_names (mem a) fun b _ => apart a b

end Codec

/-- A text that a codec takes is a whole document. -/
theorem Codec.Takes.decode? {c : Codec α} {v : Json} {a : α} (h : c.Takes maxDepth v.print a) :
    c.decode? v.render = some a :=
  decode?_text h

end JobPipeline.Json
