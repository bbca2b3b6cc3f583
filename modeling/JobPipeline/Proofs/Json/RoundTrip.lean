import JobPipeline.Proofs.Json.Canonical

/-!
# Values survive their texts

What is printed is read back, if it is not nested too deep, and is refused if it is
(`reads_value`). `reread` says what comes back. Real numbers may come back as neighbours, and an
object may name its fields in any order and more than once: then it comes back with its keys in
order, the last field of each key counting. Canonical values without real numbers stay as they are.
-/

namespace JobPipeline.Json

open Utf8 (Symbol)

variable {α σ : Type}

/-- A loop whose steps succeed or fail by a test of their own. -/
theorem foldlM_if {step : σ → α → Option σ} {p : α → Prop} [DecidablePred p] {g : σ → α → σ}
    {items : List α} (h : ∀ s, ∀ a ∈ items, step s a = if p a then some (g s a) else none) (s : σ) :
    items.foldlM step s = if ∀ a ∈ items, p a then some (items.foldl g s) else none := by
  induction items generalizing s with
  | nil => simp
  | cons a items ih =>
    have ih := ih fun s b hb => h s b (List.mem_cons_of_mem a hb)
    rw [List.foldlM_cons, h s a List.mem_cons_self]
    by_cases ha : p a
    · simp [ha, ih]
    · simp [ha]

/-! ## How long a text is -/

section
variable {t : List Char} {ts : List (List Char)}

theorem length_le_joined (h : t ∈ ts) (c : Char) : t.length ≤ (joined c ts).length := by
  cases ts with
  | nil => cases h
  | cons u us =>
    rw [joined_cons, List.length_append]
    rcases List.mem_cons.1 h with rfl | h
    · omega
    · have : (c :: t).length ≤ (us.flatMap (c :: ·)).length :=
        (List.sublist_flatten_of_mem (List.mem_map_of_mem h)).length_le
      rw [List.length_cons] at this
      omega

theorem length_le_joined_succ (c : Char) (ts : List (List Char)) :
    ts.length ≤ (joined c ts).length + 1 := by
  cases ts with
  | nil => simp
  | cons t ts =>
    have : ts.length ≤ (ts.flatMap (c :: ·)).length := by
      induction ts with
      | nil => simp
      | cons u us ih => simp at ih ⊢; omega
    rw [joined_cons, List.length_append, List.length_cons]
    omega

theorem length_lt_printArray (h : t ∈ ts) : t.length < (printArray ts).length := by
  have := length_le_joined h ','
  simp [printArray]
  omega

theorem length_lt_printObject (h : t ∈ ts) : t.length < (printObject ts).length := by
  have := length_le_joined h ','
  simp [printObject]
  omega

theorem items_lt_printArray (ts : List (List Char)) : ts.length < (printArray ts).length := by
  have := length_le_joined_succ ',' ts
  simp [printArray]
  omega

theorem items_lt_printObject (ts : List (List Char)) : ts.length < (printObject ts).length := by
  have := length_le_joined_succ ',' ts
  simp [printObject]
  omega

theorem length_lt_printField (key : String) (t : List Char) :
    t.length < (printField key t).length := by
  simp [printField]
  omega

end

theorem printItems_eq (items : List Json) : printItems items = items.map print := by
  induction items with
  | nil => rfl
  | cons v rest ih => rw [printItems, ih, List.map_cons]

theorem printFields_eq (fields : List (String × Json)) :
    printFields fields = fields.map fun f => printField f.1 f.2.print := by
  induction fields with
  | nil => rfl
  | cons f rest ih => rw [printFields, ih, List.map_cons]

/-! ## What comes back -/

/-- The number that the text of a real number is read as. -/
def rereadReal (x : Binary64) : Json :=
  match scalar (printed (Layout.json.text x).toList) with
  | .ok (v, _) => v
  | .error _ => .real x

theorem reads_real {x : Binary64} (h : x.Ordinary) :
    Reads scalar (Layout.json.text x).toList (some (rereadReal x)) := by
  obtain ⟨y, reads⟩ := reads_text_real h
  have alone := reads.ok stops_nil
  rw [List.append_nil] at alone
  have : rereadReal x = .real y := by rw [rereadReal, alone]
  rwa [this]

mutual

/-- The value that the text of a value is read as. -/
def reread : Json → Json
  | .real x => rereadReal x
  | .array items => .array (rereadItems items)
  | .object fields => ofFields (rereadFields fields)
  | v => v

def rereadItems : List Json → List Json
  | [] => []
  | v :: rest => reread v :: rereadItems rest

def rereadFields : List (String × Json) → List (String × Json)
  | [] => []
  | (k, v) :: rest => (k, reread v) :: rereadFields rest

end

theorem rereadItems_eq (items : List Json) : rereadItems items = items.map reread := by
  induction items with
  | nil => rfl
  | cons v rest ih => rw [rereadItems, ih, List.map_cons]

theorem rereadFields_eq (fields : List (String × Json)) :
    rereadFields fields = fields.map fun f => (f.1, f.2.reread) := by
  induction fields with
  | nil => rfl
  | cons f rest ih => rw [rereadFields, ih, List.map_cons]

theorem ofFields_of_sorted {fields : List (String × Json)} (sorted : Sorted fields) :
    ofFields fields = .object fields := by
  have loop : ∀ (done rest : List (String × Json)), Sorted (done ++ rest) →
      rest.foldl (fun sorted f => insertField f.1 f.2 sorted) done = done ++ rest := by
    intro done rest
    induction rest generalizing done with
    | nil => simp
    | cons f rest ih =>
      obtain ⟨k, v⟩ := f
      intro sorted
      have greater : ∀ g ∈ done, g.1 < k :=
        fun g hg => (List.pairwise_append.1 sorted).2.2 g hg (k, v) List.mem_cons_self
      have next := ih (done ++ [(k, v)]) (by simpa using sorted)
      simpa [insertField_of_greater greater] using next
  exact congrArg _ (loop [] fields sorted)

theorem exact_ofFields {fields : List (String × Json)} (all : ∀ f ∈ fields, f.2.Exact) :
    (ofFields fields).Exact := by
  have loop : ∀ (done rest : List (String × Json)), (∀ f ∈ done, f.2.Exact) →
      (∀ f ∈ rest, f.2.Exact) →
      ∀ f ∈ rest.foldl (fun sorted f => insertField f.1 f.2 sorted) done, f.2.Exact := by
    intro done rest
    induction rest generalizing done with
    | nil => exact fun hdone _ => hdone
    | cons g rest ih =>
      intro hdone hrest
      obtain ⟨first, others⟩ := List.forall_mem_cons.1 hrest
      refine ih _ (fun f hf => ?_) others
      rcases mem_insertField hf with rfl | hf
      · exact first
      · exact hdone f hf
  exact .object (loop [] fields (List.forall_mem_nil _) all)

theorem Exact.reread {v : Json} (h : v.Exact) : v.reread.Exact := by
  induction h with
  | null => exact .null
  | bool b => exact .bool b
  | integer n => exact .integer n
  | string s => exact .string s
  | array _ ih =>
    rw [Json.reread, rereadItems_eq]
    exact .array (List.forall_mem_map.2 ih)
  | object _ ih =>
    rw [Json.reread, rereadFields_eq]
    exact exact_ofFields (List.forall_mem_map.2 ih)

/-- **A canonical value without real numbers stays as it is.** -/
theorem Canonical.reread_eq {v : Json} (h : v.Canonical) (exact : v.Exact) : v.reread = v := by
  induction h with
  | real ordinary => cases exact
  | @array items all ih =>
    have exact : ∀ v ∈ items, v.Exact := by cases exact; assumption
    have same : ∀ v ∈ items, v.reread = v := fun v hv => ih v hv (exact v hv)
    rw [reread, rereadItems_eq, List.map_congr_left same, List.map_id']
  | @object fields sorted all ih =>
    have exact : ∀ f ∈ fields, f.2.Exact := by cases exact; assumption
    have same : ∀ f ∈ fields, (f.1, f.2.reread) = f := fun f hf => by rw [ih f hf (exact f hf)]
    rw [reread, rereadFields_eq, List.map_congr_left same, List.map_id', ofFields_of_sorted sorted]
  | _ => rfl

/-! ## Reading what was printed -/

theorem Writable.opens_print {v : Json} (h : v.Writable) : Opens v.print := by
  cases h with
  | null => exact ⟨'n', _, rfl, by decide⟩
  | bool b => cases b <;> exact ⟨_, _, rfl, by decide⟩
  | integer n =>
    obtain ⟨c, cs, heq, opens⟩ := (proper_writtenInt n.val).exists_opens
    exact ⟨c, cs, by rw [← heq, text_writtenInt, print], by simp [opener, opens]⟩
  | real ordinary =>
    obtain ⟨c, cs, heq, opens⟩ := opens_text_real ordinary
    exact ⟨c, cs, by rw [← heq, print], by simp [opener, opens]⟩
  | string s => exact ⟨'"', _, rfl, by decide⟩
  | array all => exact ⟨'[', _, rfl, by decide⟩
  | object all => exact ⟨'{', _, rfl, by decide⟩

section
variable {bound d : Nat} {t : List Char} {o : Option Json}

/-- Whatever opens no array or object is read as a scalar. -/
theorem Reads.value_of_scalar (h : Reads scalar t o) (opens : Opens t)
    (noArray : ∀ cs, t ≠ '[' :: cs) (noObject : ∀ cs, t ≠ '{' :: cs) :
    Reads (value bound d) t o := by
  refine h.congr fun rest => ?_
  have skipped := skipSpace_printed opens rest
  cases d with
  | zero => rw [value, skipped]
  | succ d =>
    obtain ⟨c, cs, rfl, -⟩ := opens
    rw [value, skipped, printed_cons, List.cons_append]
    split
    · rename_i h; cases h; exact absurd rfl (noArray cs)
    · rename_i h; cases h; exact absurd rfl (noObject cs)
    · rfl

theorem reads_array {items : List Json} (opens : ∀ v ∈ items, Opens v.print)
    (reads : ∀ v ∈ items, Reads (value bound d) v.print
      (if v.depth ≤ d then some v.reread else none))
    (enough : items.length < bound) :
    Reads (value bound (d + 1)) (printArray (items.map print))
      (if ∀ v ∈ items, v.depth ≤ d then some (.array (items.map reread)) else none) := by
  let element (items : List Json) (input : List Symbol) : Result (List Json) :=
    (value bound d input).map fun r => (r.1 :: items, r.2)
  have step : ∀ (s : List Json), ∀ v ∈ items,
      (if v.depth ≤ d then some v.reread else none).map (· :: s) =
        if v.depth ≤ d then some (v.reread :: s) else none := by
    intro s v _
    split_ifs <;> rfl
  have loop : Reads (elements element bound true []) (joined ',' (items.map print) ++ [']']) _ :=
    elements_printed opens (fun v hv s => (reads v hv).map (· :: s)) enough []
  rw [foldlM_if step, List.foldl_flip_cons_eq_append, List.append_nil] at loop
  have whole := loop.map fun items => Json.array items.reverse
  intro rest stop
  have here := whole rest stop
  rw [printArray, printed_cons, List.cons_append, value,
    skipSpace_char (show isSpace '[' = false by decide)]
  refine here.trans (congrArg _ ?_)
  split_ifs
  · simp
  · rfl

/-- What a reader of values does with a member of an object, from behind its key. -/
def readMember (bound d : Nat) (key : String) (fields : List (String × Json))
    (input : List Symbol) : Result (List (String × Json)) :=
  match colon input with
  | .error f => .error f
  | .ok rest => (value bound d rest).map fun (v, rest) => (insertField key v fields, rest)

/-- The fields of an object may come in any order, and more than once. -/
theorem reads_object {fields : List (String × Json)}
    (reads : ∀ f ∈ fields, Reads (value bound d) f.2.print
      (if f.2.depth ≤ d then some f.2.reread else none))
    (enough : fields.length < bound) :
    Reads (value bound (d + 1)) (printObject (fields.map fun f => printField f.1 f.2.print))
      (if ∀ f ∈ fields, f.2.depth ≤ d then some (ofFields (fields.map fun f => (f.1, f.2.reread)))
        else none) := by
  have step : ∀ (s : List (String × Json)), ∀ f ∈ fields,
      (if f.2.depth ≤ d then some f.2.reread else none).map (insertField f.1 · s) =
        if f.2.depth ≤ d then some (insertField f.1 f.2.reread s) else none := by
    intro s f _
    split_ifs <;> rfl
  have one : ∀ f ∈ fields, ∀ s, Reads (readMember bound d f.1 s) (':' :: f.2.print)
      ((if f.2.depth ≤ d then some f.2.reread else none).map (insertField f.1 · s)) :=
    fun f hf s rest stop => (reads f hf).map (insertField f.1 · s) rest stop
  have loop := members_printed stringBody_printed one enough []
  rw [foldlM_if step] at loop
  have whole := loop.map Json.object
  intro rest stop
  have here := whole rest stop
  rw [printObject, printed_cons, List.cons_append, value,
    skipSpace_char (show isSpace '{' = false by decide)]
  refine here.trans (congrArg _ ?_)
  split_ifs
  · simp [ofFields, List.foldl_map]
  · rfl

theorem reads_flat {v : Json} (writable : v.Writable) (flat : v.depth = 0) :
    Reads (value bound d) v.print (some v.reread) := by
  have other {c : Char} {t : List Char} (h : opensNumber c = true) :
      (∀ cs, c :: t ≠ '[' :: cs) ∧ ∀ cs, c :: t ≠ '{' :: cs := by
    constructor <;> (intro cs heq; cases heq; cases h)
  have opens := writable.opens_print
  cases writable with
  | null => exact (Reads.of_ok fun rest _ => rfl).value_of_scalar opens nofun nofun
  | bool b =>
    cases b <;> exact (Reads.of_ok fun rest _ => rfl).value_of_scalar opens nofun nofun
  | integer n =>
    obtain ⟨c, cs, heq, number⟩ := (proper_writtenInt n.val).exists_opens
    have reads : Reads scalar (print (.integer n)) (some (.integer n)) :=
      .of_ok fun rest stop => scalar_printInt n stop
    rw [text_writtenInt] at heq
    rw [print, heq] at reads opens ⊢
    exact reads.value_of_scalar opens (other number).1 (other number).2
  | @real x ordinary =>
    have reads := reads_real ordinary
    obtain ⟨c, cs, heq, number⟩ := opens_text_real ordinary
    rw [print, heq] at opens ⊢
    rw [heq] at reads
    exact reads.value_of_scalar opens (other number).1 (other number).2
  | string s =>
    have reads : Reads scalar (print (.string s)) (some (.string s)) :=
      .of_ok fun rest _ => scalar_printString s rest
    exact reads.value_of_scalar opens nofun nofun
  | array all => cases flat
  | object all => cases flat

/-- **Printed values are read back**, up to the nesting that is allowed and no further. -/
theorem reads_value {v : Json} (writable : v.Writable) (enough : v.print.length < bound) :
    Reads (value bound d) v.print (if v.depth ≤ d then some v.reread else none) := by
  induction d generalizing v with
  | zero =>
    by_cases flat : v.depth = 0
    · rw [if_pos flat.le]
      exact reads_flat writable flat
    · rw [if_neg (by omega)]
      cases writable with
      | array all => exact .of_error fun rest _ => ⟨.malformed, rfl⟩
      | object all => exact .of_error fun rest _ => ⟨.malformed, rfl⟩
      | _ => exact absurd rfl flat
  | succ d ih =>
    by_cases flat : v.depth = 0
    · rw [if_pos (by omega)]
      exact reads_flat writable flat
    · cases writable with
      | @array items all =>
        rw [print, printItems_eq] at enough ⊢
        have shorter : ∀ v ∈ items, v.print.length < bound :=
          fun v hv => (length_lt_printArray (List.mem_map.2 ⟨v, hv, rfl⟩)).trans enough
        have few := (items_lt_printArray (items.map print)).trans enough
        have loop := reads_array (fun v hv => (all v hv).opens_print)
          (fun v hv => ih (all v hv) (shorter v hv)) (by simpa using few)
        simpa only [depth, Nat.succ_le_succ_iff, depthItems_le_iff, reread, rereadItems_eq]
          using loop
      | @object fields all =>
        rw [print, printFields_eq] at enough ⊢
        have shorter : ∀ f ∈ fields, f.2.print.length < bound := fun f hf =>
          ((length_lt_printField f.1 _).trans
            (length_lt_printObject (List.mem_map.2 ⟨f, hf, rfl⟩))).trans enough
        have few := (items_lt_printObject _).trans enough
        have reads : ∀ f ∈ fields, Reads (value bound d) f.2.print
            (if f.2.depth ≤ d then some f.2.reread else none) :=
          fun f hf => ih (all f hf) (shorter f hf)
        have loop := reads_object reads (by simpa using few)
        simpa only [depth, Nat.succ_le_succ_iff, depthFields_le_iff, reread, rereadFields_eq] using
          loop
      | _ => exact absurd rfl flat

end

end JobPipeline.Json
