import JobPipeline.Proofs.Json.Reals

/-!
# The values that can be read

Reading gives canonical values and no others: the keys of each object go up, every real number is
one of the format, and the value is nested no deeper than was allowed (`canonical_of_value`).
-/

namespace JobPipeline.Json

open Utf8 (Symbol)

mutual

/-- How deep arrays and objects are nested. -/
def depth : Json → Nat
  | .array items => depthItems items + 1
  | .object fields => depthFields fields + 1
  | _ => 0

def depthItems : List Json → Nat
  | [] => 0
  | v :: rest => max (depth v) (depthItems rest)

def depthFields : List (String × Json) → Nat
  | [] => 0
  | (_, v) :: rest => max (depth v) (depthFields rest)

end

theorem depthItems_le_iff {items : List Json} {d : Nat} :
    depthItems items ≤ d ↔ ∀ v ∈ items, v.depth ≤ d := by
  induction items with
  | nil => simp [depthItems]
  | cons v rest ih => simp [depthItems, ih]

theorem depthFields_le_iff {fields : List (String × Json)} {d : Nat} :
    depthFields fields ≤ d ↔ ∀ f ∈ fields, f.2.depth ≤ d := by
  induction fields with
  | nil => simp [depthFields]
  | cons f rest ih =>
    obtain ⟨k, v⟩ := f
    simp [depthFields, ih]

/-- The keys of an object go up. -/
def Sorted (fields : List (String × Json)) : Prop := fields.Pairwise fun f g => f.1 < g.1

/-- The values in the form in which they are kept. -/
inductive Canonical : Json → Prop
  | null : Canonical .null
  | bool (b : Bool) : Canonical (.bool b)
  | integer (n : Integer) : Canonical (.integer n)
  | real {x : Binary64} (ordinary : x.Ordinary) : Canonical (.real x)
  | string (s : String) : Canonical (.string s)
  | array {items : List Json} (all : ∀ v ∈ items, Canonical v) : Canonical (.array items)
  | object {fields : List (String × Json)} (sorted : Sorted fields)
    (all : ∀ f ∈ fields, Canonical f.2) : Canonical (.object fields)

/-- The values that have a text: their real numbers are numbers. An object may name its fields in
any order and more than once. -/
inductive Writable : Json → Prop
  | null : Writable .null
  | bool (b : Bool) : Writable (.bool b)
  | integer (n : Integer) : Writable (.integer n)
  | real {x : Binary64} (ordinary : x.Ordinary) : Writable (.real x)
  | string (s : String) : Writable (.string s)
  | array {items : List Json} (all : ∀ v ∈ items, Writable v) : Writable (.array items)
  | object {fields : List (String × Json)} (all : ∀ f ∈ fields, Writable f.2) :
    Writable (.object fields)

/-- The values without real numbers. -/
inductive Exact : Json → Prop
  | null : Exact .null
  | bool (b : Bool) : Exact (.bool b)
  | integer (n : Integer) : Exact (.integer n)
  | string (s : String) : Exact (.string s)
  | array {items : List Json} (all : ∀ v ∈ items, Exact v) : Exact (.array items)
  | object {fields : List (String × Json)} (all : ∀ f ∈ fields, Exact f.2) : Exact (.object fields)

theorem Canonical.writable {v : Json} (h : v.Canonical) : v.Writable := by
  induction h with
  | null => exact .null
  | bool b => exact .bool b
  | integer n => exact .integer n
  | real ordinary => exact .real ordinary
  | string s => exact .string s
  | array _ ih => exact .array ih
  | object _ _ ih => exact .object ih

theorem Exact.writable {v : Json} (h : v.Exact) : v.Writable := by
  induction h with
  | null => exact .null
  | bool b => exact .bool b
  | integer n => exact .integer n
  | string s => exact .string s
  | array _ ih => exact .array ih
  | object _ ih => exact .object ih

/-! ## Putting a field at its place -/

section
variable {key : String} {value : Json} {fields : List (String × Json)}

theorem mem_insertField {f : String × Json} (h : f ∈ insertField key value fields) :
    f = (key, value) ∨ f ∈ fields := by
  induction fields with
  | nil => simpa [insertField] using h
  | cons g rest ih =>
    obtain ⟨k, v⟩ := g
    rw [insertField] at h
    split_ifs at h
    · simpa using h
    · rcases List.mem_cons.1 h with h | h
      · exact .inl h
      · exact .inr (List.mem_cons_of_mem _ h)
    · rcases List.mem_cons.1 h with h | h
      · exact .inr (h ▸ List.mem_cons_self)
      · exact (ih h).imp_right (List.mem_cons_of_mem _)

theorem Sorted.insertField (sorted : Sorted fields) : Sorted (insertField key value fields) := by
  induction fields with
  | nil => exact List.pairwise_singleton _ _
  | cons g rest ih =>
    obtain ⟨k, v⟩ := g
    obtain ⟨first, others⟩ := List.pairwise_cons.1 sorted
    rw [Json.insertField]
    split_ifs with before same
    · refine List.pairwise_cons.2 ⟨fun f hf => ?_, sorted⟩
      rcases List.mem_cons.1 hf with rfl | hf
      · exact before
      · exact before.trans (first f hf)
    · subst same
      exact List.pairwise_cons.2 ⟨first, others⟩
    · refine List.pairwise_cons.2 ⟨fun f hf => ?_, ih others⟩
      rcases mem_insertField hf with rfl | hf
      · exact lt_of_le_of_ne (not_lt.1 before) (Ne.symm same)
      · exact first f hf

/-- A field whose key is greater than all others is put at the end. -/
theorem insertField_of_greater (greater : ∀ f ∈ fields, f.1 < key) :
    insertField key value fields = fields ++ [(key, value)] := by
  induction fields with
  | nil => rfl
  | cons g rest ih =>
    obtain ⟨k, v⟩ := g
    have after : k < key := greater (k, v) List.mem_cons_self
    rw [insertField, if_neg (not_lt.2 after.le), if_neg after.ne',
      ih fun f hf => greater f (List.mem_cons_of_mem _ hf), List.cons_append]

end

/-! ## What a reader gives -/

section
variable {σ κ : Type} {P : σ → Prop}

/-- What every element keeps, the whole array keeps. -/
theorem elements_keeps {element : σ → List Symbol → Result σ}
    (keeps : ∀ s input s' rest, P s → element s input = .ok (s', rest) → P s') {bound : Nat}
    {first : Bool} {s s' : σ} {input rest : List Symbol} (hs : P s)
    (h : elements element bound first s input = .ok (s', rest)) : P s' := by
  induction bound generalizing first s input with
  | zero => cases h
  | succ bound ih =>
    have next {input' : List Symbol} {r : σ × List Symbol} (one : element s input' = .ok r)
        (others : elements element bound false r.1 r.2 = .ok (s', rest)) : P s' :=
      ih (keeps s input' r.1 r.2 hs one) others
    rw [elements] at h
    split at h
    · cases h
    · cases h; exact hs
    · split_ifs at h
      · dsimp only at h
        split at h
        · cases h
        · rename_i one
          exact next one h
      · split at h
        · cases h
        · dsimp only at h
          split at h
          · cases h
          · rename_i one
            exact next one h

/-- What every member keeps, the whole object keeps. -/
theorem members_keeps {key : List Symbol → Result κ} {member : κ → σ → List Symbol → Result σ}
    (keeps : ∀ k s input s' rest, P s → member k s input = .ok (s', rest) → P s') {bound : Nat}
    {first : Bool} {s s' : σ} {input rest : List Symbol} (hs : P s)
    (h : members key member bound first s input = .ok (s', rest)) : P s' := by
  induction bound generalizing first s input with
  | zero => cases h
  | succ bound ih =>
    have next {input' : List Symbol} {k : κ} {r : σ × List Symbol}
        (one : member k s input' = .ok r)
        (others : members key member bound false r.1 r.2 = .ok (s', rest)) : P s' :=
      ih (keeps k s input' r.1 r.2 hs one) others
    rw [members] at h
    split at h
    · cases h; exact hs
    all_goals
      split_ifs at h
      dsimp only at h
      split at h
      · split at h
        · cases h
        · split at h
          · cases h
          · rename_i one
            exact next one h
      · cases h

end

theorem exists_of_map {α β : Type} {r : Except Fault α} {f : α → β} {b : β}
    (h : r.map f = .ok b) : ∃ a, r = .ok a ∧ f a = b := by
  cases r with
  | error fault => cases h
  | ok a => exact ⟨a, rfl, Except.ok.inj h⟩

theorem canonical_of_toJson {w : Written} {v : Json} (h : w.toJson = .ok v) :
    v.Canonical ∧ v.depth = 0 := by
  have ordinary {n : Nat} (bits : n < 18446744073709551616) : (Binary64.ofNat n).Ordinary := by
    refine Binary64.ordinary_ofNat (lt_trans ?_ Binary64.two_pow_lt_limit)
    calc (n : ℚ) < 18446744073709551616 := by exact_mod_cast bits
      _ < 2 ^ 101 := by norm_num
  have negate {x : Binary64} (hx : x.Ordinary) : x.negate.Ordinary := by
    cases x <;> exact hx
  obtain ⟨n, unread, hwhole⟩ : ∃ n unread, gather 0 w.whole = (n, unread) := ⟨_, _, rfl⟩
  obtain ⟨m, left, hfraction⟩ : ∃ m left, gather n w.fraction = (m, left) := ⟨_, _, rfl⟩
  have bits := (gather_spec hwhole).2.2 (by decide)
  have bits' := (gather_spec hfraction).2.2 bits
  simp only [Written.toJson, hwhole, hfraction] at h
  split_ifs at h
  · cases h; exact ⟨.integer _, rfl⟩
  · cases h; exact ⟨.real (negate (ordinary bits)), rfl⟩
  · cases h; exact ⟨.integer _, rfl⟩
  -- A real number, with and without its sign.
  · split at h
    · cases h
    · rename_i hx
      cases h
      exact ⟨.real (negate (Binary64.ordinary_of_scaled? bits' hx)), rfl⟩
  · split at h
    · cases h
    · rename_i hx
      cases h
      exact ⟨.real (Binary64.ordinary_of_scaled? bits' hx), rfl⟩

theorem canonical_of_scalar {input rest : List Symbol} {v : Json}
    (h : scalar input = .ok (v, rest)) : v.Canonical ∧ v.depth = 0 := by
  unfold scalar at h
  split at h
  · obtain ⟨_, -, h⟩ := exists_of_map h
    cases h; exact ⟨.null, rfl⟩
  · obtain ⟨_, -, h⟩ := exists_of_map h
    cases h; exact ⟨.bool true, rfl⟩
  · obtain ⟨_, -, h⟩ := exists_of_map h
    cases h; exact ⟨.bool false, rfl⟩
  · obtain ⟨_, -, h⟩ := exists_of_map h
    cases h; exact ⟨.string _, rfl⟩
  · split_ifs at h
    rw [numberValue] at h
    split at h
    · cases h
    · split at h
      · cases h
      · rename_i hvalue
        cases h
        exact canonical_of_toJson hvalue
  · cases h

/-- **What is read is canonical**, and nested no deeper than was allowed. -/
theorem canonical_of_value {bound d : Nat} {input rest : List Symbol} {v : Json}
    (h : value bound d input = .ok (v, rest)) : v.Canonical ∧ v.depth ≤ d := by
  induction d generalizing input rest v with
  | zero =>
    obtain ⟨canonical, flat⟩ := canonical_of_scalar h
    exact ⟨canonical, flat.le⟩
  | succ d ih =>
    rw [value] at h
    split at h
    · obtain ⟨⟨items, rest⟩, hitems, h⟩ := exists_of_map h
      cases h
      have all : ∀ v ∈ items, v.Canonical ∧ v.depth ≤ d := by
        refine elements_keeps (P := fun items => ∀ v ∈ items, v.Canonical ∧ v.depth ≤ d)
          (fun items input items' rest kept hv => ?_) nofun hitems
        obtain ⟨⟨v, rest⟩, hv, h⟩ := exists_of_map hv
        cases h
        exact List.forall_mem_cons.2 ⟨ih hv, kept⟩
      refine ⟨.array fun v hv => (all v (List.mem_reverse.1 hv)).1, Nat.succ_le_succ ?_⟩
      exact depthItems_le_iff.2 fun v hv => (all v (List.mem_reverse.1 hv)).2
    · obtain ⟨⟨fields, rest⟩, hfields, h⟩ := exists_of_map h
      cases h
      have all : Sorted fields ∧ ∀ f ∈ fields, f.2.Canonical ∧ f.2.depth ≤ d := by
        refine members_keeps (P := fun fields => Sorted fields ∧
          ∀ f ∈ fields, f.2.Canonical ∧ f.2.depth ≤ d)
          (fun key fields input fields' rest kept hv => ?_) ⟨.nil, nofun⟩ hfields
        split at hv
        · cases hv
        · obtain ⟨⟨v, rest⟩, hv, h⟩ := exists_of_map hv
          cases h
          refine ⟨kept.1.insertField, fun f hf => ?_⟩
          rcases mem_insertField hf with rfl | hf
          · exact ih hv
          · exact kept.2 f hf
      exact ⟨.object all.1 fun f hf => (all.2 f hf).1,
        Nat.succ_le_succ (depthFields_le_iff.2 fun f hf => (all.2 f hf).2)⟩
    · obtain ⟨canonical, flat⟩ := canonical_of_scalar h
      exact ⟨canonical, by omega⟩

end JobPipeline.Json
