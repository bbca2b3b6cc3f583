import JobPipeline.Job.Uuid
import JobPipeline.Proofs.Text.Utf8

/-!
# Text that needs no escape

A text of unreserved characters has no escape in it, so as a segment of a path it stands for itself
(`decode?_of_unreserved`). The random identities are such texts (`Uuid.unreserved_v4`).
-/

namespace JobPipeline

/-! ## Unreserved characters -/

namespace Percent

/-- The characters that are written as they are wherever they stand in a URL. -/
def isUnreserved (c : Char) : Bool := c.isAlphanum || c == '-' || c == '.' || c == '_' || c == '~'

/-- A text of unreserved characters. -/
def Unreserved (s : String) : Prop := ∀ c ∈ s.toList, isUnreserved c = true

instance (s : String) : Decidable (Unreserved s) :=
  inferInstanceAs (Decidable (∀ c ∈ s.toList, isUnreserved c = true))

/-- What starts no escape stands for its own bytes. -/
theorem unescape_cons_of_ne {c : Char} (h : c ≠ '%') (rest : List Char) :
    unescape (c :: rest) = String.utf8EncodeChar c ++ unescape rest := by
  rw [unescape]
  exact fun _ _ _ escape _ => h escape

theorem unescape_of_unreserved {cs : List Char} (h : ∀ c ∈ cs, isUnreserved c = true) :
    unescape cs = cs.flatMap String.utf8EncodeChar := by
  induction cs with
  | nil => rfl
  | cons c cs ih =>
    obtain ⟨first, others⟩ := List.forall_mem_cons.1 h
    have plain : c ≠ '%' := by rintro rfl; cases first
    rw [unescape_cons_of_ne plain, ih others, List.flatMap_cons]

/-- **A text of unreserved characters stands for itself.** -/
theorem decode?_of_unreserved {s : String} (h : Unreserved s) : decode? s = some s := by
  rw [decode?, unescape_of_unreserved h, ← Utf8.encode_eq, Utf8.text?_encode]

end Percent

/-! ## Random identities -/

namespace Uuid

open Percent (isUnreserved Unreserved)

theorem isUnreserved_digitChar {n : Nat} (h : n < 16) : isUnreserved (Nat.digitChar n) = true := by
  revert n
  decide

theorem isUnreserved_hexDigits (n x : Nat) : ∀ c ∈ hexDigits n x, isUnreserved c = true := by
  induction n generalizing x with
  | zero => exact nofun
  | succ n ih =>
    rw [hexDigits, List.forall_mem_append, List.forall_mem_singleton]
    exact ⟨ih _, isUnreserved_digitChar (Nat.mod_lt x (by decide))⟩

/-- **A random identity needs no escape**, whatever the bits it is made of. -/
theorem unreserved_v4 (random : Nat) : Unreserved (v4 random) := by
  have variant : 8 + random / Nat.pow 2 60 % 4 < 16 := by omega
  rw [Unreserved, v4, String.toList_ofList]
  simp only [List.forall_mem_append, List.forall_mem_cons]
  exact ⟨⟨⟨⟨isUnreserved_hexDigits _ _, by decide, isUnreserved_hexDigits _ _⟩, by decide,
    by decide, isUnreserved_hexDigits _ _⟩, by decide, isUnreserved_digitChar variant,
    isUnreserved_hexDigits _ _⟩, by decide, isUnreserved_hexDigits _ _⟩

end Uuid
end JobPipeline
