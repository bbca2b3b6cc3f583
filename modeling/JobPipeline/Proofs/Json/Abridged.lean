import Mathlib.Data.Set.Defs
import JobPipeline.Proofs.Json.Canonical

/-!
# Documents that show a part

A document may show a value in part (`Abridged`): some fields of its objects are gone, the others
stand in any order, and there are members of other names between them. The value that is left when
these fields are cut out is one such document (`Distinct.abridged_without`).
-/

namespace JobPipeline.Json

/-- The names that lead to a place in a document. -/
abbrev Path := List String

/-- The places of a set that are under a name, as they are seen from there. -/
def within (name : String) (D : Set Path) : Set Path := {p | name :: p ∈ D}

/-- The values that an object has for a name. -/
def valuesOf (name : String) (shown : List (String × Json)) : List Json :=
  shown.filterMap fun f => if f.1 = name then some f.2 else none

mutual

/-- The document `w` shows the value `v` but for the fields in `D`. An object has each of its other
fields once, in any order, and it may have members of names that `v` does not have there. -/
def Abridged : Set Path → (v w : Json) → Prop
  | D, .object fields, w => ∃ shown, w = .object shown ∧ AbridgedFields D shown fields
  | _, v, w => w = v

def AbridgedFields : Set Path → (shown fields : List (String × Json)) → Prop
  | _, _, [] => True
  | D, shown, (name, v) :: fields =>
    ([name] ∈ D → valuesOf name shown = []) ∧
    ([name] ∉ D → ∃ w, valuesOf name shown = [w] ∧ Abridged (within name D) v w) ∧
    AbridgedFields D shown fields

end

open Classical in
mutual

/-- A value without the fields in `D`. -/
noncomputable def without : Set Path → Json → Json
  | D, .object fields => .object (fieldsWithout D fields)
  | _, v => v

noncomputable def fieldsWithout : Set Path → List (String × Json) → List (String × Json)
  | _, [] => []
  | D, (name, v) :: fields =>
    if [name] ∈ D then fieldsWithout D fields
    else (name, without (within name D) v) :: fieldsWithout D fields

end

/-- No object names a field twice, as far as only objects lead to it. -/
inductive Distinct : Json → Prop
  | object {fields : List (String × Json)} (names : (fields.map Prod.fst).Nodup)
    (all : ∀ f ∈ fields, Distinct f.2) : Distinct (.object fields)
  | other {v : Json} (whole : ∀ fields, v ≠ .object fields) : Distinct v

section
variable {D : Set Path} {name : String} {shown fields : List (String × Json)} {v w : Json}

theorem valuesOf_nil (name : String) : valuesOf name [] = [] := rfl

theorem valuesOf_cons (f : String × Json) (shown : List (String × Json)) :
    valuesOf name (f :: shown) =
      if f.1 = name then f.2 :: valuesOf name shown else valuesOf name shown := by
  rw [valuesOf, List.filterMap_cons]
  split_ifs <;> rfl

theorem mem_valuesOf : w ∈ valuesOf name shown ↔ (name, w) ∈ shown := by
  simp [valuesOf]

theorem length_valuesOf (name : String) (shown : List (String × Json)) :
    (valuesOf name shown).length = (shown.map Prod.fst).count name := by
  induction shown with
  | nil => rfl
  | cons f shown ih =>
    by_cases h : f.1 = name <;> simp [valuesOf_cons, h, ih]

theorem valuesOf_eq_nil_iff : valuesOf name shown = [] ↔ name ∉ shown.map Prod.fst := by
  rw [← List.count_eq_zero, ← length_valuesOf, List.length_eq_zero_iff]

theorem abridgedFields_iff : AbridgedFields D shown fields ↔ ∀ f ∈ fields,
    ([f.1] ∈ D → valuesOf f.1 shown = []) ∧
    ([f.1] ∉ D → ∃ w, valuesOf f.1 shown = [w] ∧ Abridged (within f.1 D) f.2 w) := by
  induction fields with
  | nil => simp [AbridgedFields]
  | cons f fields ih => rw [List.forall_mem_cons, ← ih, AbridgedFields, and_assoc]

/-- Only objects can be shown in part. -/
theorem Abridged.eq (h : Abridged D v w) (whole : ∀ fields, v ≠ .object fields) : w = v := by
  cases v with
  | object fields => exact absurd rfl (whole fields)
  | _ => exact h

theorem writable_object_iff : (object fields).Writable ↔ ∀ f ∈ fields, f.2.Writable :=
  ⟨fun h => by cases h; assumption, .object⟩

/-! ### Cutting fields out -/

theorem mem_fieldsWithout {f : String × Json} (h : f ∈ fieldsWithout D fields) :
    ∃ v, (f.1, v) ∈ fields ∧ [f.1] ∉ D ∧ f.2 = v.without (within f.1 D) := by
  induction fields with
  | nil => cases h
  | cons g fields ih =>
    obtain ⟨name, v⟩ := g
    have later (h : f ∈ fieldsWithout D fields) :
        ∃ u, (f.1, u) ∈ (name, v) :: fields ∧ [f.1] ∉ D ∧ f.2 = u.without (within f.1 D) := by
      obtain ⟨u, mem, rest⟩ := ih h
      exact ⟨u, List.mem_cons_of_mem _ mem, rest⟩
    rw [fieldsWithout] at h
    split_ifs at h with out
    · exact later h
    · rcases List.mem_cons.1 h with rfl | h
      · exact ⟨v, List.mem_cons_self, out, rfl⟩
      · exact later h

theorem Writable.without (h : v.Writable) (D : Set Path) : (v.without D).Writable := by
  induction h generalizing D with
  | @object fields all ih =>
    refine .object fun f hf => ?_
    obtain ⟨v, mem, -, cut⟩ := mem_fieldsWithout hf
    rw [cut]
    exact ih _ mem _
  | null => exact .null
  | bool b => exact .bool b
  | integer n => exact .integer n
  | real ordinary => exact .real ordinary
  | string s => exact .string s
  | array all => exact .array all

theorem valuesOf_fieldsWithout_of_mem (out : [name] ∈ D) :
    valuesOf name (fieldsWithout D fields) = [] := by
  refine valuesOf_eq_nil_iff.2 fun there => ?_
  obtain ⟨f, hf, rfl⟩ := List.mem_map.1 there
  obtain ⟨-, -, stays, -⟩ := mem_fieldsWithout hf
  exact stays out

theorem valuesOf_fieldsWithout (names : (fields.map Prod.fst).Nodup) (mem : (name, v) ∈ fields)
    (stays : [name] ∉ D) :
    valuesOf name (fieldsWithout D fields) = [v.without (within name D)] := by
  induction fields with
  | nil => cases mem
  | cons g fields ih =>
    obtain ⟨key, u⟩ := g
    obtain ⟨new, names⟩ := List.nodup_cons.1 names
    rw [fieldsWithout]
    rcases List.mem_cons.1 mem with here | later
    · cases here
      have alone : valuesOf name (fieldsWithout D fields) = [] := by
        refine valuesOf_eq_nil_iff.2 fun there => ?_
        obtain ⟨f, hf, rfl⟩ := List.mem_map.1 there
        obtain ⟨w, again, -⟩ := mem_fieldsWithout hf
        exact new (List.mem_map.2 ⟨_, again, rfl⟩)
      rw [if_neg stays, valuesOf_cons, if_pos rfl, alone]
    · have other : key ≠ name := by
        rintro rfl
        exact new (List.mem_map.2 ⟨_, later, rfl⟩)
      split_ifs
      · exact ih names later
      · rw [valuesOf_cons, if_neg other]
        exact ih names later

/-- What is left when fields are cut out shows the others. -/
theorem Distinct.abridged_without (h : v.Distinct) (D : Set Path) : Abridged D v (v.without D) := by
  induction h generalizing D with
  | @object fields names all ih =>
    refine ⟨_, rfl, abridgedFields_iff.2 fun f hf => ?_⟩
    exact ⟨valuesOf_fieldsWithout_of_mem,
      fun stays => ⟨_, valuesOf_fieldsWithout names hf stays, ih f hf _⟩⟩
  | @other v whole =>
    cases v with
    | object fields => exact absurd rfl (whole fields)
    | _ => rfl

mutual

theorem without_empty : (v : Json) → v.without ∅ = v
  | .object fields => by rw [without, fieldsWithout_empty]
  | .null => rfl
  | .bool _ => rfl
  | .integer _ => rfl
  | .real _ => rfl
  | .string _ => rfl
  | .array _ => rfl

theorem fieldsWithout_empty : (fields : List (String × Json)) → fieldsWithout ∅ fields = fields
  | [] => rfl
  | (name, v) :: fields => by
    have under : within name ∅ = ∅ := rfl
    rw [fieldsWithout, under, without_empty v, fieldsWithout_empty fields, if_neg (by simp)]

end

end

end JobPipeline.Json
