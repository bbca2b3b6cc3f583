import JobPipeline.Proofs.Json.Fields
import JobPipeline.Proofs.Json.RoundTrip
import JobPipeline.Proofs.Text.Utf8

/-!
# Typed values survive their texts

`Codec.Rereads c d a o` says what the text of `a` is read as by the codec that wrote it, `d` levels
of nesting being allowed: the value in `o`, or nothing if the text is refused. There is one lemma
for each way to make a codec. That of a record rests on the lemmas of its fields (`Fields.Rereads`),
and on the names of the fields being different.
-/

namespace JobPipeline.Json

open Utf8 (Symbol)

variable {α β : Type} {d : Nat}

/-- What the text of a value is read as. -/
structure Codec.Rereads (c : Codec α) (d : Nat) (a : α) (o : Option α) : Prop where
  opens : Opens (c.print a)
  reads : ∀ bound, (c.print a).length < bound → Reads (c.read bound d) (c.print a) o

namespace Codec

theorem scalar_skipSpace {t : List Char} (opens : Opens t) {v : Json}
    (h : Reads scalar t (some v)) {rest : List Symbol} (stop : stops rest = true) :
    scalar (skipSpace (printed t ++ rest)) = .ok (v, rest) := by
  rw [skipSpace_printed opens, h.ok stop]

theorem opens_printString (s : String) : Opens (printString s) := ⟨'"', _, rfl, by decide⟩

/-- A string is read whatever stands behind it. -/
theorem read_text (s : String) (bound d : Nat) (rest : List Symbol) :
    text.read bound d (printed (printString s) ++ rest) = .ok (s, rest) := by
  simp only [text, skipSpace_printed (opens_printString s), scalar_printString]

theorem rereads_text (s : String) : text.Rereads d s (some s) :=
  ⟨opens_printString s, fun bound _ => .of_ok fun rest _ => read_text s bound d rest⟩

theorem rereads_bool (b : Bool) : bool.Rereads d b (some b) := by
  have opens := (Writable.bool b).opens_print
  have reads : Reads scalar (Json.bool b).print (some (.bool b)) := by
    cases b <;> exact .of_ok fun rest _ => rfl
  refine ⟨opens, fun bound _ => .of_ok fun rest stop => ?_⟩
  simp only [bool, scalar_skipSpace opens reads stop]

theorem rereads_natural {bits n : Nat} (small : bits ≤ 64) (h : n < 2 ^ bits) :
    (natural bits).Rereads d n (some n) := by
  have range : n < 18446744073709551616 :=
    h.trans_le (Nat.pow_le_pow_right (by decide) small)
  have text : (Json.ofNat n range).print = Nat.toDigits 10 n := by
    simp [ofNat, Json.print, printInt]
  have opens := (Writable.integer ⟨n, by omega⟩).opens_print
  have reads : Reads scalar (Json.ofNat n range).print (some (.ofNat n range)) :=
    .of_ok fun rest stop => scalar_printInt _ stop
  change Opens (Json.ofNat n range).print at opens
  rw [text] at opens reads
  refine ⟨opens, fun bound _ => .of_ok fun rest stop => ?_⟩
  have whole : (0 : Int) ≤ n ∧ (n : Int) < Nat.pow 2 bits := by
    rw [Nat.pow_eq]
    exact ⟨Int.natCast_nonneg n, by exact_mod_cast h⟩
  simp only [natural, scalar_skipSpace opens reads stop, ofNat, if_pos whole, Int.toNat_natCast]

/-- A type that is another one under a different name, and back again. -/
theorem Rereads.via {c : Codec α} {make : α → β} {view : β → α} {b : β}
    (h : c.Rereads d (view b) (some (view b))) (same : make (view b) = b) :
    (c.via make view).Rereads d b (some b) := by
  refine ⟨h.opens, fun bound enough => ?_⟩
  have made := (h.reads bound enough).map make
  rwa [Option.map_some, same] at made

theorem rereads_word16 (n : UInt16) : word16.Rereads d n (some n) :=
  (rereads_natural (by decide) n.toNat_lt).via UInt16.ofNat_toNat

theorem rereads_word32 (n : UInt32) : word32.Rereads d n (some n) :=
  (rereads_natural (by decide) n.toNat_lt).via UInt32.ofNat_toNat

theorem rereads_word64 (n : UInt64) : word64.Rereads d n (some n) :=
  (rereads_natural (by decide) n.toNat_lt).via UInt64.ofNat_toNat

theorem rereads_free {v : Json} (h : v.Writable) :
    free.Rereads d v (if v.depth ≤ d then some v.reread else none) :=
  ⟨h.opens_print, fun _ enough => reads_value h enough⟩

theorem rereads_none (c : Codec α) : c.optional.Rereads d none (some none) :=
  ⟨⟨'n', _, rfl, by decide⟩, fun _ _ => .of_ok fun _ _ => rfl⟩

/-- A value that is there is read as itself, if its text is not taken for `null`. -/
theorem Rereads.optional {c : Codec α} {a : α} {o : Option α} (h : c.Rereads d a o)
    (noNull : ∀ cs, c.print a ≠ 'n' :: cs) : c.optional.Rereads d (some a) (o.map some) := by
  refine ⟨h.opens, fun bound enough => ((h.reads bound enough).map some).congr fun rest => ?_⟩
  obtain ⟨c, cs, htext, hc⟩ := h.opens
  have skipped := skipSpace_printed h.opens rest
  simp only [Codec.optional]
  rw [skipped, htext, printed_cons, List.cons_append]
  split
  · rename_i h
    cases h
    exact absurd htext (noNull cs)
  · rfl

theorem rereads_optional_text (s : Option String) : text.optional.Rereads d s (some s) := by
  cases s with
  | none => exact rereads_none text
  | some s => exact (rereads_text s).optional nofun

theorem rereads_optional_word32 (n : Option UInt32) : word32.optional.Rereads d n (some n) := by
  cases n with
  | none => exact rereads_none word32
  | some n =>
    refine (rereads_word32 n).optional fun cs text => ?_
    have digit : Numeral.isDigit 'n' = true :=
      Numeral.isDigit_of_mem_toDigits (show 'n' ∈ Nat.toDigits 10 n.toNat by
        rw [show Nat.toDigits 10 n.toNat = 'n' :: cs from text]
        exact List.mem_cons_self)
    exact absurd digit (by decide)

/-- A list is read if all its elements are. -/
theorem rereads_list {c : Codec α} {p : α → Prop} [DecidablePred p] {g : α → α} {as : List α}
    (h : ∀ a ∈ as, c.Rereads d a (if p a then some (g a) else none)) :
    (list c).Rereads (d + 1) as (if ∀ a ∈ as, p a then some (as.map g) else none) := by
  refine ⟨⟨'[', _, rfl, by decide⟩, fun bound enough => ?_⟩
  let element (items : List α) (input : List Symbol) : Result (List α) :=
    (c.read bound d input).map fun r => (r.1 :: items, r.2)
  have step : ∀ (s : List α), ∀ a ∈ as, (if p a then some (g a) else none).map (· :: s) =
      if p a then some (g a :: s) else none := by
    intro s a _
    split_ifs <;> rfl
  have one : ∀ a ∈ as, ∀ s, Reads (element s) (c.print a)
      ((if p a then some (g a) else none).map (· :: s)) := by
    intro a ha s
    have shorter := (length_lt_printArray (List.mem_map.2 ⟨a, ha, rfl⟩)).trans enough
    exact ((h a ha).reads bound shorter).map (· :: s)
  have few := (items_lt_printArray _).trans enough
  have loop : Reads (elements element bound true []) (joined ',' (as.map c.print) ++ [']']) _ :=
    elements_printed (fun a ha => (h a ha).opens) one (by simpa using few) []
  rw [foldlM_if step, List.foldl_flip_cons_eq_append, List.append_nil] at loop
  have whole := loop.map List.reverse
  intro rest stop
  have here := whole rest stop
  simp only [list, printArray, printed_cons, List.cons_append,
    skipSpace_char (show isSpace '[' = false by decide)]
  refine here.trans (congrArg _ ?_)
  split_ifs
  · simp
  · rfl

/-- A name is read as the value it stands for, if no other value has it. -/
theorem rereads_names {all : List α} {name : α → String} {a : α} (mem : a ∈ all)
    (apart : ∀ b ∈ all, name b = name a → b = a) : (names all name).Rereads d a (some a) := by
  have found : named? all name (name a) = some a := by
    rw [named?]
    cases h : all.find? fun b => decide (name b = name a) with
    | none => exact absurd (List.find?_eq_none.1 h a mem) (by simp)
    | some b =>
      rw [apart b (List.mem_of_find?_eq_some h) (by simpa using List.find?_some h)]
  refine ⟨opens_printString (name a), fun bound _ => .of_ok fun rest _ => ?_⟩
  have read := read_text (name a) 0 0 rest
  have skipped := skipSpace_printed (opens_printString (name a)) rest
  obtain ⟨tail, shape⟩ : ∃ tail, printed (printString (name a)) ++ rest = .char '"' :: tail :=
    ⟨_, rfl⟩
  rw [shape] at read skipped
  simp only [names]
  rw [shape, skipped]
  cases d <;> simp [read, found]

end Codec

/-! ## Records -/

namespace Fields

def names : {αs : List Type} → Fields αs → List String
  | [], .nil => []
  | _ :: _, .cons field fields => field.name :: fields.names

/-- What the values of the fields are read as. A field that is not shown is filled in. -/
inductive Rereads (d : Nat) :
    {αs : List Type} → Fields αs → Values αs → Option (Values αs) → Prop
  | nil : Rereads d .nil () (some ())
  | shown {α : Type} {αs : List Type} {field : Field α} {fields : Fields αs} {a : α}
    {as : Values αs} {o : Option α} {os : Option (Values αs)} (visible : field.hidden a = false)
    (first : field.codec.Rereads d a o) (others : Rereads d fields as os) :
    Rereads d (.cons field fields) (a, as) (o.bind fun a => os.map fun as => (a, as))
  | hidden {α : Type} {αs : List Type} {field : Field α} {fields : Fields αs} {a b : α}
    {as : Values αs} {os : Option (Values αs)} (hidden : field.hidden a = true)
    (absent : field.absent = some b) (others : Rereads d fields as os) :
    Rereads d (.cons field fields) (a, as) (os.map fun as => (b, as))

/-- A member of an object, with what reading it does to the slots. -/
structure Piece (αs : List Type) where
  key : String
  text : List Char
  step : Slots αs → Option (Slots αs)

/-- The pieces of a record, read from the first to the last, fill its slots. -/
structure Filling (bound d : Nat) {αs : List Type} (fields : Fields αs) (as : Values αs)
    (os : Option (Values αs)) (pieces : List (Piece αs)) : Prop where
  print : fields.print as = pieces.map fun p => printField p.key p.text
  names : ∀ p ∈ pieces, p.key ∈ fields.names
  reads : ∀ p ∈ pieces, ∀ s, Reads (fields.member bound d p.key s) (':' :: p.text) (p.step s)
  complete :
    (pieces.foldlM (fun s (p : Piece αs) => p.step s) fields.none).bind fields.complete = os

/-- A piece of the fields behind the first one. -/
def Piece.behind {α : Type} {αs : List Type} (p : Piece αs) : Piece (α :: αs) :=
  ⟨p.key, p.text, fun (slot, slots) => (p.step slots).map (slot, ·)⟩

section
variable {bound : Nat} {αs : List Type} {field : Field α} {fields : Fields αs}

theorem reads_behind {p : Piece αs} (new : p.key ≠ field.name)
    (h : ∀ s, Reads (fields.member bound d p.key s) (':' :: p.text) (p.step s))
    (s : Slots (α :: αs)) :
    Reads ((Fields.cons field fields).member bound d p.key s) (':' :: p.text)
      (p.behind.step s) := by
  obtain ⟨slot, slots⟩ := s
  exact ((h slots).map (slot, ·)).congr fun rest => member_behind new

theorem foldlM_behind (pieces : List (Piece αs)) (slot : Option α) (slots : Slots αs) :
    (pieces.map Piece.behind).foldlM (fun s (p : Piece (α :: αs)) => p.step s) (slot, slots) =
      (pieces.foldlM (fun s (p : Piece αs) => p.step s) slots).map (slot, ·) := by
  induction pieces generalizing slots with
  | nil => rfl
  | cons p pieces ih =>
    rw [List.map_cons, List.foldlM_cons, List.foldlM_cons]
    cases h : p.step slots with
    | none => simp [Piece.behind, h]
    | some slots' => simpa [Piece.behind, h] using ih slots'

/-- The member of the first field, if it is read into an empty slot. -/
theorem reads_first {t : List Char} {o : Option α} (h : Reads (field.codec.read bound d) t o)
    (s : Slots (α :: αs)) :
    Reads ((Fields.cons field fields).member bound d field.name s) (':' :: t)
      (if s.1.isSome then Option.none else o.map fun a => (some a, s.2)) := by
  obtain ⟨slot, slots⟩ := s
  cases slot with
  | some _ => exact .of_error fun rest _ => ⟨.mismatch, member_again rfl⟩
  | none =>
    exact fun rest stop => (congrArg Except.toOption (member_first rfl)).trans
      (h.map (fun a => (some a, slots)) rest stop)

end

theorem exists_filling {bound : Nat} {αs : List Type} {fields : Fields αs} {as : Values αs}
    {os : Option (Values αs)} (h : fields.Rereads d as os) (distinct : fields.names.Nodup)
    (enough : ∀ t ∈ fields.print as, t.length < bound) :
    ∃ pieces, fields.Filling bound d as os pieces := by
  induction h with
  | nil => exact ⟨[], rfl, nofun, nofun, rfl⟩
  | @shown α αs field fields a as o os visible first others ih =>
    have shown : (Fields.cons field fields).print (a, as) =
        printField field.name (field.codec.print a) :: fields.print as := by
      simp [Fields.print, visible]
    rw [shown, List.forall_mem_cons] at enough
    obtain ⟨new, distinct⟩ := List.nodup_cons.1 distinct
    obtain ⟨pieces, filling⟩ := ih distinct enough.2
    let here : Piece (α :: αs) := ⟨field.name, field.codec.print a, fun (slot, slots) =>
      if slot.isSome then Option.none else o.map fun a => (some a, slots)⟩
    refine ⟨here :: pieces.map Piece.behind, ?_, ?_, ?_, ?_⟩
    · rw [shown, filling.print]
      simp [here, Piece.behind]
    · refine List.forall_mem_cons.2 ⟨List.mem_cons_self, List.forall_mem_map.2 fun p hp => ?_⟩
      exact List.mem_cons_of_mem _ (filling.names p hp)
    · have value := first.reads bound ((length_lt_printField _ _).trans enough.1)
      refine List.forall_mem_cons.2 ⟨reads_first value, List.forall_mem_map.2 fun p hp => ?_⟩
      exact reads_behind (fun h => new (h ▸ filling.names p hp)) (filling.reads p hp)
    · rw [List.foldlM_cons, ← filling.complete]
      cases o with
      | none => rfl
      | some a =>
        have loop := foldlM_behind pieces (some a) fields.none
        show (List.foldlM (fun s (p : Piece (α :: αs)) => p.step s) (some a, fields.none) _).bind
          _ = _
        rw [loop]
        cases pieces.foldlM (fun s (p : Piece αs) => p.step s) fields.none with
        | none => rfl
        | some slots =>
          show (Fields.cons field fields).complete (some a, slots) = _
          rw [complete]
          cases h : fields.complete slots <;> simp [h]
  | @hidden α αs field fields a b as os hidden absent others ih =>
    have unseen : (Fields.cons field fields).print (a, as) = fields.print as := by
      simp [Fields.print, hidden]
    rw [unseen] at enough
    obtain ⟨new, distinct⟩ := List.nodup_cons.1 distinct
    obtain ⟨pieces, filling⟩ := ih distinct enough
    refine ⟨pieces.map Piece.behind, ?_, ?_, ?_, ?_⟩
    · rw [unseen, filling.print]
      simp [Piece.behind]
    · refine List.forall_mem_map.2 fun p hp => ?_
      exact List.mem_cons_of_mem _ (filling.names p hp)
    · refine List.forall_mem_map.2 fun p hp => ?_
      exact reads_behind (fun h => new (h ▸ filling.names p hp)) (filling.reads p hp)
    · have loop := foldlM_behind pieces (Option.none : Option α) fields.none
      rw [Fields.none, loop, ← filling.complete]
      cases pieces.foldlM (fun s (p : Piece αs) => p.step s) fields.none with
      | none => rfl
      | some slots =>
        show (Fields.cons field fields).complete (Option.none, slots) =
          (fields.complete slots).map _
        rw [complete, absent]
        cases fields.complete slots <;> rfl

/-- The members of a record are read by everybody who reads those of its names as the record
does. -/
theorem Rereads.object {αs : List Type} {τ : Type} {fields : Fields αs} {as : Values αs}
    {os : Option (Values αs)} (h : fields.Rereads d as os) (distinct : fields.names.Nodup)
    {bound : Nat} (enough : (printObject (fields.print as)).length < bound)
    {member : String → Slots αs → List Symbol → Result (Slots αs)}
    (agrees : ∀ key ∈ fields.names, member key = fields.member bound d key)
    (make : Values αs → τ) :
    Reads (fun input => match members stringBody member bound true fields.none input with
      | .error f => .error f
      | .ok (slots, rest) => match fields.complete slots with
        | some as => .ok (make as, rest)
        | Option.none => .error .mismatch)
      (joined ',' (fields.print as) ++ ['}']) (os.map make) := by
  obtain ⟨pieces, filling⟩ := exists_filling h distinct
    fun t ht => (length_lt_printObject ht).trans enough
  have few := (items_lt_printObject _).trans enough
  have reads : ∀ p ∈ pieces, ∀ s, Reads (member p.key s) (':' :: p.text) (p.step s) := by
    intro p hp s
    rw [agrees p.key (filling.names p hp)]
    exact filling.reads p hp s
  have loop := members_printed stringBody_printed reads (by simpa [filling.print] using few)
    fields.none
  rw [← filling.print] at loop
  intro rest stop
  rw [← filling.complete]
  cases hfold : pieces.foldlM (fun s (p : Piece αs) => p.step s) fields.none with
  | none =>
    rw [hfold] at loop
    obtain ⟨f, hf⟩ := loop.error stop
    simp only [hf]
    rfl
  | some slots =>
    rw [hfold] at loop
    simp only [loop.ok stop]
    cases hcomplete : fields.complete slots <;> simp [hcomplete] <;> rfl

end Fields

/-- **A record is read if all its fields are.** -/
theorem Codec.rereads_record {αs : List Type} {τ : Type} {fields : Fields αs} {make : Values αs → τ}
    {view : τ → Values αs} {a : τ} {os : Option (Values αs)}
    (h : fields.Rereads d (view a) os) (distinct : fields.names.Nodup) :
    (Codec.record fields make view).Rereads (d + 1) a (os.map make) := by
  refine ⟨⟨'{', _, rfl, by decide⟩, fun bound enough => ?_⟩
  have members := h.object distinct enough (fun _ _ => rfl) id
  rw [Option.map_id_fun, id_eq] at members
  refine (members.map make).congr fun rest => ?_
  simp only [Codec.record, printObject, printed_cons, List.cons_append,
    skipSpace_char (show isSpace '{' = false by decide), readObject]
  rfl

section
variable {c : Codec α} {t : List Char} {a : α} {o : Option α}

/-- A text is read in front of anything that does not go on with its last number. -/
theorem Codec.decodePrefix_text
    (h : ∀ bound, t.length < bound → Reads (c.read bound maxDepth) t o) {rest : List Symbol}
    (stop : stops rest = true) :
    (c.decodePrefix (Utf8.symbols (String.ofList t) ++ rest)).toOption = o.map (·, rest) := by
  have symbols : Utf8.symbols (String.ofList t) = printed t := by
    rw [Utf8.symbols, String.toList_ofList, printed]
  rw [symbols, Codec.decodePrefix]
  refine h _ ?_ rest stop
  rw [List.length_append, length_printed]
  omega

/-- A text is a whole document. -/
theorem Codec.decode?_text
    (h : ∀ bound, t.length < bound → Reads (c.read bound maxDepth) t o) :
    c.decode? (String.ofList t) = o := by
  have alone := decodePrefix_text h stops_nil
  rw [List.append_nil] at alone
  rw [Codec.decode?, Codec.decodeSymbols?]
  cases hread : c.decodePrefix (Utf8.symbols (String.ofList t)) with
  | error f =>
    rw [hread] at alone
    cases o with
    | none => rfl
    | some a => cases alone
  | ok r =>
    rw [hread] at alone
    cases o with
    | none => cases alone
    | some a => cases alone; rfl

theorem Codec.Rereads.decodePrefix (h : c.Rereads maxDepth a o) {rest : List Symbol}
    (stop : stops rest = true) :
    (c.decodePrefix (Utf8.symbols (c.encode a) ++ rest)).toOption = o.map (·, rest) :=
  decodePrefix_text h.reads stop

theorem Codec.Rereads.decode? (h : c.Rereads maxDepth a o) : c.decode? (c.encode a) = o :=
  decode?_text h.reads

theorem Codec.Rereads.decodeBytes? (h : c.Rereads maxDepth a o) :
    c.decodeBytes? (Utf8.encode (c.encode a)) = o := by
  rw [Codec.decodeBytes?, Utf8.decode_encode]
  exact h.decode?

end

end JobPipeline.Json
