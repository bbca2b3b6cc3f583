import JobPipeline.Json.Codec
import JobPipeline.Proofs.Json.Canonical

/-!
# What the fields of a record can hold

However a record is written, as an object or as an array, each of its fields holds a value that the
field's codec has read, or one of the two that stand in for a missing field (`gives_of_record`).
-/

namespace JobPipeline.Json

open Utf8 (Symbol)

/-- The values a field can hold, `d` levels of nesting being allowed. -/
inductive Field.Gives {α : Type} (d : Nat) (field : Field α) (a : α) : Prop
  | read {bound : Nat} {input rest : List Symbol}
    (h : field.codec.read bound d input = .ok (a, rest))
  | absent (h : field.absent = some a)
  | short (h : field.short = some a)

namespace Fields

variable {bound d : Nat} {αs : List Type} {fields : Fields αs}

/-! ## The member of a field -/

section
variable {α : Type} {field : Field α} {slots : Slots αs} {key : String} {input : List Symbol}

theorem member_again {a : α} (same : key = field.name) :
    (cons field fields).member bound d key (some a, slots) input = .error .mismatch :=
  if_pos same

theorem member_first (same : key = field.name) :
    (cons field fields).member bound d key (Option.none, slots) input =
      match colon input with
      | .error f => .error f
      | .ok rest => (field.codec.read bound d rest).map fun (a, rest) => ((some a, slots), rest) :=
  if_pos same

theorem member_behind {slot : Option α} (other : key ≠ field.name) :
    (cons field fields).member bound d key (slot, slots) input =
      (fields.member bound d key slots input).map fun (slots, rest) => ((slot, slots), rest) :=
  if_neg other

end

/-! ## What is read -/

def Gives (d : Nat) : {αs : List Type} → Fields αs → Values αs → Prop
  | [], .nil, _ => True
  | _ :: _, .cons field fields, (a, as) => field.Gives d a ∧ fields.Gives d as

/-- Every slot that is filled holds a value of its field. -/
def Holds (d : Nat) : {αs : List Type} → Fields αs → Slots αs → Prop
  | [], .nil, _ => True
  | _ :: _, .cons field fields, (slot, slots) =>
    (∀ a, slot = some a → field.Gives d a) ∧ fields.Holds d slots

theorem holds_none : {αs : List Type} → (fields : Fields αs) → fields.Holds d fields.none
  | [], .nil => trivial
  | _ :: _, .cons _ fields => ⟨nofun, fields.holds_none⟩

theorem holds_of_member {key : String} {slots slots' : Slots αs} {input rest : List Symbol}
    (holds : fields.Holds d slots)
    (h : fields.member bound d key slots input = .ok (slots', rest)) : fields.Holds d slots' := by
  induction fields with
  | nil => trivial
  | cons field fields ih =>
    obtain ⟨slot, slots⟩ := slots
    obtain ⟨here, behind⟩ := holds
    by_cases same : key = field.name
    · cases slot with
      | some a => rw [member_again same] at h; cases h
      | none =>
        rw [member_first same] at h
        split at h
        · cases h
        · obtain ⟨⟨a, rest⟩, hread, h⟩ := exists_of_map h
          cases h
          refine ⟨fun b hb => ?_, behind⟩
          cases hb
          exact .read hread
    · rw [member_behind same] at h
      obtain ⟨⟨slots, rest⟩, hmember, h⟩ := exists_of_map h
      cases h
      exact ⟨here, ih behind hmember⟩

theorem gives_of_complete {slots : Slots αs} {as : Values αs} (holds : fields.Holds d slots)
    (h : fields.complete slots = some as) : fields.Gives d as := by
  induction fields with
  | nil => trivial
  | cons field fields ih =>
    obtain ⟨slot, slots⟩ := slots
    rw [complete] at h
    split at h
    · rename_i a as' hslot hslots
      cases h
      refine ⟨?_, ih holds.2 hslots⟩
      cases slot with
      | none => exact .absent hslot
      | some b => cases hslot; exact holds.1 a rfl
    · cases h

theorem gives_of_beyond {as : Values αs} (h : fields.beyond = some as) : fields.Gives d as := by
  induction fields with
  | nil => trivial
  | cons field fields ih =>
    rw [beyond] at h
    split at h
    · rename_i a as' hshort hfields
      cases h
      exact ⟨.short hshort, ih hfields⟩
    · cases h

theorem gives_of_positional {first : Bool} {input rest : List Symbol} {as : Values αs}
    (h : fields.positional bound d first input = .ok (as, rest)) : fields.Gives d as := by
  induction fields generalizing first input with
  | nil => trivial
  | @cons α αs field fields ih =>
    have next {input' : List Symbol} {r : α × List Symbol}
        (one : field.codec.read bound d input' = .ok r)
        (others : ((fields.positional bound d false r.2).map fun r' => ((r.1, r'.1), r'.2)) =
          .ok (as, rest)) : (Fields.cons field fields).Gives d as := by
      obtain ⟨r', hfields, h⟩ := exists_of_map others
      cases h
      exact ⟨.read one, ih hfields⟩
    rw [positional] at h
    split at h
    · cases h
    · rw [ended] at h
      split at h
      · rename_i hbeyond
        cases h
        exact gives_of_beyond hbeyond
      · cases h
    · split_ifs at h
      · dsimp only at h
        split at h
        · cases h
        · rename_i one
          exact next one h
      · split at h
        · cases h
        · dsimp only at h
          split at h
          · cases h
          · rename_i one
            exact next one h

end Fields

/-- **A record is made of values of its fields**, nested one level less. -/
theorem gives_of_record {αs : List Type} {τ : Type} {fields : Fields αs} {make : Values αs → τ}
    {view : τ → Values αs} {bound d : Nat} {input rest : List Symbol} {a : τ}
    (h : (Codec.record fields make view).read bound (d + 1) input = .ok (a, rest)) :
    ∃ as, fields.Gives d as ∧ make as = a := by
  simp only [Codec.record] at h
  split at h
  · cases h
  · cases h
  · rename_i hdepth
    cases hdepth
    obtain ⟨⟨as, rest⟩, hobject, h⟩ := exists_of_map h
    cases h
    rw [readObject] at hobject
    split at hobject
    · cases hobject
    · rename_i slots rest hmembers
      have holds : fields.Holds _ slots := members_keeps (P := fun slots => fields.Holds _ slots)
        (fun key slots input slots' rest holds hmember => Fields.holds_of_member holds hmember)
        fields.holds_none hmembers
      split at hobject
      · rename_i hcomplete
        cases hobject
        exact ⟨as, Fields.gives_of_complete holds hcomplete, rfl⟩
      · cases hobject
  · rename_i hdepth
    cases hdepth
    obtain ⟨⟨as, rest⟩, harray, h⟩ := exists_of_map h
    cases h
    exact ⟨as, Fields.gives_of_positional harray, rfl⟩
  · cases h

end JobPipeline.Json
