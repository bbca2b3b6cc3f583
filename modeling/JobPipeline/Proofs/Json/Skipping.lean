import JobPipeline.Proofs.Json.RoundTrip

/-!
# Printed values are passed over

A reader that does not want a value passes over it. It comes out behind the value however deep that
is nested (`reads_passOver`). What can be read as a scalar can be passed over in the same way, be it
printed or not (`skip_of_scalar`).
-/

namespace JobPipeline.Json

open Utf8 (Symbol)

variable {input rest : List Symbol} {fuel : Nat} {v : Json}

/-! ## Scalars -/

/-- Where somebody stands who passes over the string. A surrogate that wants another one is like
any other escape to him. -/
def Escape.skipped : Escape → SkippedEscape
  | .none => .none
  | .begun => .begun
  | .hex _ left _ => .hex left
  | .trailingBackslash _ => .none
  | .trailingU _ => .begun

theorem skipStringFrom_of_stringFrom {e : Escape} {acc : List Char} {s : String}
    (h : stringFrom e acc input = .ok (s, rest)) : skipStringFrom e.skipped input = .ok rest := by
  induction input generalizing e acc with
  | nil => cases e <;> cases h
  | cons symbol input ih =>
    cases symbol with
    | broken => cases e <;> cases h
    | char c =>
      cases e with
      | none =>
        simp only [stringFrom] at h
        simp only [Escape.skipped, skipStringFrom]
        split_ifs at h ⊢
        · cases h; rfl
        · exact ih h
        · exact ih h
      | begun =>
        simp only [stringFrom] at h
        simp only [Escape.skipped, skipStringFrom]
        split_ifs at h with unicode
        · rw [if_pos unicode]
          exact ih h
        · split at h
          · rename_i short
            rw [if_neg unicode, short, if_pos Option.isSome_some]
            exact ih h
          · cases h
      | hex high left n =>
        simp only [stringFrom] at h
        simp only [Escape.skipped, skipStringFrom]
        split at h
        · cases h
        · rename_i digit
          rw [digit, if_pos Option.isSome_some]
          split at h
          · exact ih h
          · split_ifs at h
            exact ih h
          · split_ifs at h
            · exact ih h
            · exact ih h
      | trailingBackslash high =>
        simp only [stringFrom] at h
        split_ifs at h with backslash
        subst backslash
        exact ih h
      | trailingU high =>
        simp only [stringFrom] at h
        split_ifs at h with unicode
        subst unicode
        exact ih h

theorem skipScalar_of_scalar (h : scalar input = .ok (v, rest)) : skipScalar input = .ok rest := by
  cases input with
  | nil => cases h
  | cons symbol input =>
    cases symbol with
    | broken => cases h
    | char c =>
      by_cases quote : c = '"'
      · subst quote
        obtain ⟨⟨s, rest⟩, hstring, h⟩ := exists_of_map h
        cases h
        exact skipStringFrom_of_stringFrom hstring
      · simp only [skipScalar]
        split_ifs with number
        · rw [scalar_of_opensNumber (by simpa [opensNumber] using number), numberValue] at h
          split at h
          · cases h
          · rename_i hnumber
            split at h
            · cases h
            · cases h
              rw [hnumber]
              rfl
        · rw [h]
          rfl

theorem skip_of_scalar (h : scalar (skipSpace input) = .ok (v, rest)) :
    skip (fuel + 1) input = .ok rest := by
  rw [skip]
  split
  · rename_i opens
    rw [opens] at h
    cases h
  · rename_i opens
    rw [opens] at h
    cases h
  · exact skipScalar_of_scalar h

/-! ## Arrays and objects -/

/-- Passing over a value, as a reader that gives nothing. -/
def passOver (fuel : Nat) (input : List Symbol) : Result Unit :=
  (skip fuel input).map fun rest => ((), rest)

def passKey (input : List Symbol) : Result Unit :=
  (skipStringFrom .none input).map fun rest => ((), rest)

/-- Passing over the rest of a member, from behind its key. -/
def passMember (fuel : Nat) (input : List Symbol) : Result Unit :=
  match colon input with
  | .error f => .error f
  | .ok rest => passOver fuel rest

theorem passOver_array (opens : skipSpace input = .char '[' :: rest) :
    passOver (fuel + 1) input = elements (fun _ => passOver fuel) (fuel + 1) true () rest := by
  rw [passOver, skip, opens]
  show (Except.map Prod.snd (elements (fun _ => passOver fuel) (fuel + 1) true () rest)).map _ = _
  cases elements (fun _ => passOver fuel) (fuel + 1) true () rest <;> rfl

theorem passOver_object (opens : skipSpace input = .char '{' :: rest) :
    passOver (fuel + 1) input =
      members passKey (fun _ _ => passMember fuel) (fuel + 1) true () rest := by
  rw [passOver, skip, opens]
  show (Except.map Prod.snd
    (members passKey (fun _ _ => passMember fuel) (fuel + 1) true () rest)).map _ = _
  cases members passKey (fun _ _ => passMember fuel) (fuel + 1) true () rest <;> rfl

theorem passKey_printed (key : String) (rest : List Symbol) :
    passKey (printed (key.toList.flatMap escape ++ ['"']) ++ rest) = .ok ((), rest) := by
  rw [passKey, show SkippedEscape.none = Escape.none.skipped from rfl,
    skipStringFrom_of_stringFrom (stringBody_printed key rest)]
  rfl

theorem foldlM_nothing {α : Type} (items : List α) :
    items.foldlM (fun _ _ => some ()) () = some () :=
  List.foldlM_pure

/-- **A value that has a text is passed over**, however deep it is nested. -/
theorem reads_passOver (writable : v.Writable) (enough : v.print.length < fuel) :
    Reads (passOver fuel) v.print (some ()) := by
  induction fuel generalizing v with
  | zero => omega
  | succ fuel ih =>
    by_cases flat : v.depth = 0
    · have reads : Reads (value 0 0) v.print (some v.reread) := reads_flat writable flat
      refine .of_ok fun rest stop => ?_
      rw [passOver, skip_of_scalar (reads.ok stop)]
      rfl
    · have enough := Nat.lt_succ_iff.1 enough
      cases writable with
      | @array items all =>
        rw [print, printItems_eq] at enough ⊢
        have shorter : ∀ v ∈ items, v.print.length < fuel :=
          fun v hv => (length_lt_printArray (List.mem_map.2 ⟨v, hv, rfl⟩)).trans_le enough
        have few : items.length < fuel + 1 := by
          simpa using Nat.lt_succ_of_lt ((items_lt_printArray (items.map print)).trans_le enough)
        have loop : Reads (elements (fun _ => passOver fuel) (fuel + 1) true ())
            (joined ',' (items.map print) ++ [']']) _ :=
          elements_printed (fun v hv => (all v hv).opens_print)
            (fun v hv _ => ih (all v hv) (shorter v hv)) few ()
        rw [foldlM_nothing] at loop
        refine loop.congr fun rest => passOver_array ?_
        exact skipSpace_char (by decide) _
      | @object fields all =>
        rw [print, printFields_eq] at enough ⊢
        have shorter : ∀ f ∈ fields, f.2.print.length < fuel := fun f hf =>
          ((length_lt_printField f.1 _).trans
            (length_lt_printObject (List.mem_map.2 ⟨f, hf, rfl⟩))).trans_le enough
        have few : fields.length < fuel + 1 := by
          simpa using Nat.lt_succ_of_lt ((items_lt_printObject _).trans_le enough)
        have one : ∀ f ∈ fields, ∀ _ : Unit, Reads (passMember fuel) (':' :: f.2.print) (some ()) :=
          fun f hf _ rest stop => ih (all f hf) (shorter f hf) rest stop
        have loop : Reads (members passKey (fun _ _ => passMember fuel) (fuel + 1) true ())
            (joined ',' (fields.map fun f => printField f.1 f.2.print) ++ ['}']) _ :=
          members_printed passKey_printed one few ()
        rw [foldlM_nothing] at loop
        refine loop.congr fun rest => passOver_object ?_
        exact skipSpace_char (by decide) _
      | _ => exact absurd rfl flat

end JobPipeline.Json
