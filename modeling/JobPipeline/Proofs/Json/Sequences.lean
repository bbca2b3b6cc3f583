import JobPipeline.Proofs.Json.Scalars

/-!
# Arrays and objects are read as they were printed

`Reads read t o` says what a reader makes of a printed text, whatever stands behind it: the value in
`o`, or a fault if there is none. The two loops of the reader are followed once and for all here. If
each text between the brackets takes the state on by a `step`, or fails, then the whole of them does
what the steps do one after the other (`elements_printed`, `members_printed`).
-/

namespace JobPipeline.Json

open Utf8 (Symbol)

variable {α β σ ι : Type}

/-- What a reader makes of a text, if a number in it would end there. -/
def Reads (read : List Symbol → Result α) (t : List Char) (o : Option α) : Prop :=
  ∀ rest, stops rest = true → (read (printed t ++ rest)).toOption = o.map (·, rest)

namespace Reads

variable {read : List Symbol → Result α} {t : List Char} {o : Option α}

theorem of_ok {a : α}
    (h : ∀ rest, stops rest = true → read (printed t ++ rest) = .ok (a, rest)) :
    Reads read t (some a) :=
  fun rest stop => by rw [h rest stop]; rfl

theorem of_error (h : ∀ rest, stops rest = true → ∃ f, read (printed t ++ rest) = .error f) :
    Reads read t none :=
  fun rest stop => by obtain ⟨f, hf⟩ := h rest stop; rw [hf]; rfl

theorem ok {a : α} (h : Reads read t (some a)) {rest : List Symbol} (stop : stops rest = true) :
    read (printed t ++ rest) = .ok (a, rest) := by
  have := h rest stop
  cases hread : read (printed t ++ rest) with
  | error f => rw [hread] at this; cases this
  | ok r => rw [hread] at this; rw [Option.some.inj this]

theorem error (h : Reads read t none) {rest : List Symbol} (stop : stops rest = true) :
    ∃ f, read (printed t ++ rest) = .error f := by
  have := h rest stop
  cases hread : read (printed t ++ rest) with
  | error f => exact ⟨f, rfl⟩
  | ok r => rw [hread] at this; cases this

/-- Readers that agree on two texts read them alike. -/
theorem congr {read' : List Symbol → Result α} {t' : List Char} (h : Reads read t o)
    (same : ∀ rest, read' (printed t' ++ rest) = read (printed t ++ rest)) : Reads read' t' o :=
  fun rest stop => by rw [same, h rest stop]

theorem map (h : Reads read t o) (f : α → β) :
    Reads (fun input => (read input).map fun (a, rest) => (f a, rest)) t (o.map f) := by
  cases o with
  | none =>
    refine of_error fun rest stop => ?_
    obtain ⟨fault, hf⟩ := h.error stop
    exact ⟨fault, by rw [hf]; rfl⟩
  | some a => exact of_ok fun rest stop => by rw [h.ok stop]; rfl

end Reads

/-! ## Where a value begins -/

/-- The characters a printed value begins with. -/
def opener (c : Char) : Bool := c ∈ ['"', '[', '{', 't', 'f', 'n'] || opensNumber c

/-- The text begins like a value. -/
def Opens (t : List Char) : Prop := ∃ c cs, t = c :: cs ∧ opener c = true

theorem ne_of_opener {c d : Char} (h : opener c = true) (other : opener d = false) : c ≠ d := by
  rintro rfl
  rw [h] at other
  cases other

theorem isSpace_of_opener {c : Char} (h : opener c = true) : isSpace c = false := by
  have ne {d : Char} (other : opener d = false) : (c == d) = false :=
    beq_eq_false_iff_ne.2 (ne_of_opener h other)
  simp [isSpace, ne (show opener ' ' = false by decide), ne (show opener '\t' = false by decide),
    ne (show opener '\n' = false by decide), ne (show opener '\r' = false by decide)]

theorem skipSpace_char {c : Char} (h : isSpace c = false) (rest : List Symbol) :
    skipSpace (.char c :: rest) = .char c :: rest := by
  simp [skipSpace, h]

theorem skipSpace_printed {t : List Char} (opens : Opens t) (rest : List Symbol) :
    skipSpace (printed t ++ rest) = printed t ++ rest := by
  obtain ⟨c, cs, rfl, hc⟩ := opens
  exact skipSpace_char (isSpace_of_opener hc) _

theorem joined_cons (separator : Char) (t : List Char) (ts : List (List Char)) :
    joined separator (t :: ts) = t ++ ts.flatMap (separator :: ·) := by
  induction ts generalizing t with
  | nil => simp [joined]
  | cons u us ih => simp [joined, ih]

/-! ## Arrays -/

section
variable {element : σ → List Symbol → Result σ} {text : ι → List Char} {step : σ → ι → Option σ}
  {items : List ι}

/-- The elements behind the first one, each with its comma. -/
theorem elements_following (opens : ∀ i ∈ items, Opens (text i))
    (reads : ∀ i ∈ items, ∀ s, Reads (element s) (text i) (step s i)) {bound : Nat}
    (enough : items.length < bound) (s : σ) :
    Reads (elements element bound false s) ((items.map text).flatMap (',' :: ·) ++ [']'])
      (items.foldlM step s) := by
  induction items generalizing bound s with
  | nil =>
    obtain ⟨bound, rfl⟩ := Nat.exists_eq_add_of_lt enough
    exact .of_ok fun rest _ => rfl
  | cons i items ih =>
    obtain ⟨bound, rfl⟩ : ∃ b, bound = b + 1 := ⟨bound - 1, by omega⟩
    obtain ⟨c, cs, hi, hc⟩ := opens i List.mem_cons_self
    intro rest stop
    -- What stands behind the element, which is the next comma or the bracket.
    obtain ⟨more, hmore⟩ : ∃ more,
        more = printed ((items.map text).flatMap (',' :: ·) ++ [']']) ++ rest := ⟨_, rfl⟩
    have stop' : stops more = true := by rw [hmore]; cases items <;> rfl
    have input : printed (((i :: items).map text).flatMap (',' :: ·) ++ [']']) ++ rest =
        .char ',' :: .char c :: (printed cs ++ more) := by
      simp [hmore, hi]
    have notEnd : c ≠ ']' := ne_of_opener hc (by decide)
    have here : elements element (bound + 1) false s
          (.char ',' :: .char c :: (printed cs ++ more)) =
        (element s (printed (text i) ++ more)).bind fun r =>
          elements element bound false r.1 r.2 := by
      simp [elements, skipSpace_char (isSpace_of_opener hc), notEnd, hi,
        skipSpace_char (show isSpace ',' = false by decide)]
      cases element s (.char c :: (printed cs ++ more)) <;> rfl
    rw [input, here]
    have first := reads i List.mem_cons_self s
    cases hstep : step s i with
    | none =>
      rw [hstep] at first
      obtain ⟨f, hf⟩ := first.error stop'
      rw [hf, List.foldlM_cons, hstep]
      rfl
    | some s' =>
      rw [hstep] at first
      have next := ih (fun j hj => opens j (List.mem_cons_of_mem i hj))
        (fun j hj => reads j (List.mem_cons_of_mem i hj))
        (show items.length < bound by simp at enough; omega) s'
      rw [first.ok stop', List.foldlM_cons, hstep, hmore]
      exact next rest stop

/-- **Printed elements are read one after the other**, up to the bracket. -/
theorem elements_printed (opens : ∀ i ∈ items, Opens (text i))
    (reads : ∀ i ∈ items, ∀ s, Reads (element s) (text i) (step s i)) {bound : Nat}
    (enough : items.length < bound) (s : σ) :
    Reads (elements element bound true s) (joined ',' (items.map text) ++ [']'])
      (items.foldlM step s) := by
  cases items with
  | nil =>
    obtain ⟨bound, rfl⟩ := Nat.exists_eq_add_of_lt enough
    exact .of_ok fun rest _ => rfl
  | cons i items =>
    -- The first element is read like the others, but for the comma.
    refine (elements_following opens reads enough s).congr fun rest => ?_
    obtain ⟨bound, rfl⟩ : ∃ b, bound = b + 1 := ⟨bound - 1, by omega⟩
    obtain ⟨c, cs, hi, hc⟩ := opens i List.mem_cons_self
    have notEnd : c ≠ ']' := ne_of_opener hc (by decide)
    simp [elements, joined_cons, hi, skipSpace_char (isSpace_of_opener hc), notEnd,
      skipSpace_char (show isSpace ',' = false by decide)]

end

/-! ## Objects -/

section
variable {κ : Type} {readKey : List Symbol → Result κ} {seen : String → κ}
  {member : κ → σ → List Symbol → Result σ} {key : ι → String} {text : ι → List Char}
  {step : σ → ι → Option σ} {items : List ι}

/-- The members behind the first one, each with its comma. What is seen of a key is up to the
reader. -/
theorem members_following
    (keys : ∀ name rest,
      readKey (printed (name.toList.flatMap escape ++ ['"']) ++ rest) = .ok (seen name, rest))
    (reads : ∀ i ∈ items, ∀ s, Reads (member (seen (key i)) s) (':' :: text i) (step s i))
    {bound : Nat} (enough : items.length < bound) (s : σ) :
    Reads (members readKey member bound false s)
      ((items.map fun i => printField (key i) (text i)).flatMap (',' :: ·) ++ ['}'])
      (items.foldlM step s) := by
  induction items generalizing bound s with
  | nil =>
    obtain ⟨bound, rfl⟩ := Nat.exists_eq_add_of_lt enough
    exact .of_ok fun rest _ => rfl
  | cons i items ih =>
    obtain ⟨bound, rfl⟩ : ∃ b, bound = b + 1 := ⟨bound - 1, by omega⟩
    intro rest stop
    obtain ⟨more, hmore⟩ : ∃ more, more = printed ((items.map fun i =>
        printField (key i) (text i)).flatMap (',' :: ·) ++ ['}']) ++ rest := ⟨_, rfl⟩
    have stop' : stops more = true := by rw [hmore]; cases items <;> rfl
    have hkey := keys (key i) (printed (':' :: text i) ++ more)
    have input : printed (((i :: items).map fun i =>
          printField (key i) (text i)).flatMap (',' :: ·) ++ ['}']) ++ rest =
        .char ',' :: .char '"' :: (printed ((key i).toList.flatMap escape ++ ['"']) ++
          (printed (':' :: text i) ++ more)) := by
      simp [hmore, printField, printString]
    have here : members readKey member (bound + 1) false s (.char ',' :: .char '"' ::
          (printed ((key i).toList.flatMap escape ++ ['"']) ++
            (printed (':' :: text i) ++ more))) =
        (member (seen (key i)) s (printed (':' :: text i) ++ more)).bind fun r =>
          members readKey member bound false r.1 r.2 := by
      simp only [members, skipSpace_char (show isSpace ',' = false by decide),
        skipSpace_char (show isSpace '"' = false by decide), hkey]
      cases member (seen (key i)) s (printed (':' :: text i) ++ more) <;> rfl
    rw [input, here]
    have first := reads i List.mem_cons_self s
    cases hstep : step s i with
    | none =>
      rw [hstep] at first
      obtain ⟨f, hf⟩ := first.error stop'
      rw [hf, List.foldlM_cons, hstep]
      rfl
    | some s' =>
      rw [hstep] at first
      have next := ih (fun j hj => reads j (List.mem_cons_of_mem i hj))
        (show items.length < bound by simp at enough; omega) s'
      rw [first.ok stop', List.foldlM_cons, hstep, hmore]
      exact next rest stop

/-- **Printed members are read one after the other**, up to the brace. -/
theorem members_printed
    (keys : ∀ name rest,
      readKey (printed (name.toList.flatMap escape ++ ['"']) ++ rest) = .ok (seen name, rest))
    (reads : ∀ i ∈ items, ∀ s, Reads (member (seen (key i)) s) (':' :: text i) (step s i))
    {bound : Nat} (enough : items.length < bound) (s : σ) :
    Reads (members readKey member bound true s)
      (joined ',' (items.map fun i => printField (key i) (text i)) ++ ['}'])
      (items.foldlM step s) := by
  cases items with
  | nil =>
    obtain ⟨bound, rfl⟩ := Nat.exists_eq_add_of_lt enough
    exact .of_ok fun rest _ => rfl
  | cons i items =>
    refine (members_following keys reads enough s).congr fun rest => ?_
    obtain ⟨bound, rfl⟩ : ∃ b, bound = b + 1 := ⟨bound - 1, by omega⟩
    simp [members, joined_cons, printField, printString,
      skipSpace_char (show isSpace ',' = false by decide),
      skipSpace_char (show isSpace '"' = false by decide)]

end

end JobPipeline.Json
