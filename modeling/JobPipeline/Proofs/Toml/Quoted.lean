import JobPipeline.Proofs.Json.Scalars
import JobPipeline.Toml.Reader
import Mathlib

/-!
# A document for every text

`document` writes a document that defines one key as a text, between double quotes and with escapes
for what may not stand there. Every text is read back as it is (`read?_document`).

The reader comes to the key first (`dottedKey?_dotted`), then to the text (`string?_quoted`), which
has an end of its own. What it has read it puts into an empty table (`define_nested`).
-/

namespace JobPipeline.Toml

open Json (hexDigit)

/-! ## The writer -/

/-- A character as it is written between double quotes. -/
def escaped (c : Char) : List Char :=
  if c = '"' ∨ c = '\\' then ['\\', c]
  else if isText c then [c]
  else ['\\', 'u', '0', '0', hexDigit (c.toNat / 16), hexDigit (c.toNat % 16)]

def quoted (s : String) : List Char := '"' :: (s.toList.flatMap escaped ++ ['"'])

/-- Keys with points between them. -/
def dotted : List String → List Char
  | [] => []
  | [key] => key.toList
  | key :: path => key.toList ++ '.' :: dotted path

/-- A document that defines one key as a text. -/
def document (path : List String) (s : String) : String :=
  String.ofList (dotted path ++ ' ' :: '=' :: ' ' :: (quoted s ++ ['\n']))

/-- A value behind some keys, each in a table of its own. -/
def nested : List String → Setting → Setting
  | [], v => v
  | key :: path, v => .table [(key, nested path v)]

/-! ## Strings -/

theorem toNat_of_not_isText {c : Char} (h : isText c = false) : c.toNat < 0x80 := by
  simp only [isText, Bool.or_eq_false_iff, Bool.and_eq_false_iff, decide_eq_false_iff_not,
    not_not] at h
  rcases h.2 with low | high
  · have : ¬ ' '.toNat ≤ c.toNat := low
    have : ' '.toNat = 32 := rfl
    omega
  · rw [high]; decide

theorem stringFrom_escaped (c : Char) (acc rest : List Char) :
    stringFrom ⟨'"', true, false⟩ .plain acc (escaped c ++ rest) =
      stringFrom ⟨'"', true, false⟩ .plain (c :: acc) rest := by
  have backslash : Style.plain ⟨'"', true, false⟩ '\\' = some (.escape, []) := rfl
  unfold escaped
  split_ifs with special text
  · have short : shortEscape? c = some c := by
      rcases special with rfl | rfl <;> rfl
    have notU : c ≠ 'u' ∧ c ≠ 'U' := by
      rcases special with rfl | rfl <;> decide
    simp [stringFrom, backslash, short, notU]
  · have plain : Style.plain ⟨'"', true, false⟩ c = some (.plain, [c]) := by
      simp only [not_or] at special
      simp [Style.plain, special.2, text]
    simp only [not_or] at special
    simp [stringFrom, plain, special.1]
  · have small := toNat_of_not_isText (Bool.eq_false_iff.2 text)
    have high := Json.hexDigit?_hexDigit (show c.toNat / 16 < 16 by omega)
    have low := Json.hexDigit?_hexDigit (show c.toNat % 16 < 16 by omega)
    have zero : Percent.hexDigit? '0' = some 0 := by decide
    have whole : c.toNat / 16 * 16 + c.toNat % 16 = c.toNat := by omega
    have scalar : scalar? c.toNat = some c := by
      rw [scalar?, if_pos (.inl (by omega)), Char.ofNat_toNat]
    simp [stringFrom, backslash, zero, high, low, whole, scalar]

theorem stringFrom_quoted (cs acc rest : List Char) :
    stringFrom ⟨'"', true, false⟩ .plain acc (cs.flatMap escaped ++ '"' :: rest) =
      some (String.ofList (acc.reverse ++ cs), rest) := by
  induction cs generalizing acc with
  | nil => simp [stringFrom]
  | cons c cs ih =>
    rw [List.flatMap_cons, List.append_assoc, stringFrom_escaped, ih, List.reverse_cons,
      List.append_assoc, List.singleton_append]

/-- A text between quotes does not look like one between triple quotes. -/
theorem string?_quoted (s : String) {rest : List Char} (apart : rest.head? ≠ some '"') :
    string? (quoted s ++ rest) = some (s, rest) := by
  have single : singleLine? (quoted s ++ rest) = some (s, rest) := by
    have body := stringFrom_quoted s.toList [] rest
    rw [List.reverse_nil, List.nil_append, String.ofList_toList] at body
    rw [quoted, List.cons_append, List.append_assoc, List.singleton_append, singleLine?, body]
  rw [← single]
  unfold string?
  split
  · rename_i more triple
    exfalso
    rw [quoted, List.cons_append, List.append_assoc, List.cons.injEq] at triple
    cases hs : s.toList with
    | nil =>
      rw [hs] at triple
      simp at triple
      exact apart (by rw [triple]; rfl)
    | cons c cs =>
      -- an escaped character never starts with a quote
      rw [hs] at triple
      have head := congrArg List.head? triple.2
      unfold escaped at head
      simp only [List.flatMap_cons] at head
      split_ifs at head with special <;> simp at head
      exact special (.inl head)
  · rename_i more triple
    simp [quoted] at triple
  · rfl

/-! ## Keys -/

/-- A key that needs no quotes. -/
def Bare (key : String) : Prop := key.toList ≠ [] ∧ key.toList.all isBareKeyChar = true

instance (key : String) : Decidable (Bare key) :=
  inferInstanceAs (Decidable (key.toList ≠ [] ∧ key.toList.all isBareKeyChar = true))

theorem Bare.chars {key : String} (bare : Bare key) : ∀ c ∈ key.toList, isBareKeyChar c = true :=
  List.all_eq_true.1 bare.2

theorem Bare.exists_cons {key : String} (bare : Bare key) :
    ∃ c cs, key.toList = c :: cs ∧ isBareKeyChar c = true := by
  obtain ⟨c, cs, h⟩ := List.exists_cons_of_ne_nil bare.1
  exact ⟨c, cs, h, bare.chars c (h ▸ List.mem_cons_self)⟩

theorem skipSpace_of_bare {c : Char} (bare : isBareKeyChar c = true) (cs : List Char) :
    skipSpace (c :: cs) = c :: cs := by
  have noSpace : isSpace c = false := by
    rw [isSpace, Bool.or_eq_false_iff, beq_eq_false_iff_ne, beq_eq_false_iff_ne]
    constructor <;> rintro rfl <;> revert bare <;> decide
  rw [skipSpace, List.dropWhile_cons_of_neg (by simp [noSpace])]

theorem simpleKey?_bare {key : String} (bare : Bare key) {c : Char} {rest : List Char}
    (stop : isBareKeyChar c = false) :
    simpleKey? (skipSpace (key.toList ++ c :: rest)) = some (key, c :: rest) := by
  obtain ⟨d, ds, hkey, hd⟩ := bare.exists_cons
  have noQuote : d ≠ '"' ∧ d ≠ '\'' := by
    constructor <;> rintro rfl <;> revert hd <;> decide
  have here : skipSpace (key.toList ++ c :: rest) = key.toList ++ c :: rest := by
    rw [hkey, List.cons_append, skipSpace_of_bare hd]
  have unquoted : singleLine? (key.toList ++ c :: rest) = none := by
    rw [hkey, List.cons_append]
    unfold singleLine?
    split
    · rename_i h; exact absurd (List.cons.inj h).1 noQuote.1
    · rename_i h; exact absurd (List.cons.inj h).1 noQuote.2
    · rfl
  have taken : (key.toList ++ c :: rest).takeWhile isBareKeyChar = key.toList := by
    rw [List.takeWhile_append_of_pos bare.chars, List.takeWhile_cons_of_neg (by simp [stop]),
      List.append_nil]
  have dropped : (key.toList ++ c :: rest).dropWhile isBareKeyChar = c :: rest := by
    rw [List.dropWhile_append_of_pos bare.chars, List.dropWhile_cons_of_neg (by simp [stop])]
  have nonempty : key.toList.isEmpty = false := List.isEmpty_eq_false_iff.2 bare.1
  simp only [here, simpleKey?, unquoted, taken, dropped, nonempty, Bool.false_eq_true, if_false,
    String.ofList_toList]

theorem dottedKey?_dotted {path : List String} (nonempty : path ≠ [])
    (bare : ∀ key ∈ path, Bare key) (rest : List Char) {bound : Nat}
    (enough : path.length ≤ bound) :
    dottedKey? bound (dotted path ++ ' ' :: '=' :: rest) = some (path, '=' :: rest) := by
  induction path generalizing bound with
  | nil => exact absurd rfl nonempty
  | cons key path ih =>
    obtain ⟨bound, rfl⟩ : ∃ k, bound = k + 1 := ⟨bound - 1, by simp at enough; omega⟩
    have first := bare key List.mem_cons_self
    cases path with
    | nil =>
      have : skipSpace (' ' :: '=' :: rest) = '=' :: rest := rfl
      simp only [dotted, dottedKey?, this,
        simpleKey?_bare first (show isBareKeyChar ' ' = false by decide)]
      rfl
    | cons key' path =>
      have : skipSpace ('.' :: (dotted (key' :: path) ++ ' ' :: '=' :: rest)) =
        '.' :: (dotted (key' :: path) ++ ' ' :: '=' :: rest) := rfl
      have others := ih (List.cons_ne_nil _ _) (fun k hk => bare k (List.mem_cons_of_mem _ hk))
        (by simpa using enough)
      have whole : dotted (key :: key' :: path) = key.toList ++ '.' :: dotted (key' :: path) := rfl
      rw [whole, List.append_assoc, List.cons_append]
      simp only [dottedKey?, simpleKey?_bare first (show isBareKeyChar '.' = false by decide),
        this, others, Option.map_some]

theorem length_le_dotted {path : List String} (bare : ∀ key ∈ path, Bare key) :
    path.length ≤ (dotted path).length := by
  induction path with
  | nil => exact Nat.le_refl 0
  | cons key path ih =>
    have one : 0 < key.toList.length := List.length_pos_iff.2 (bare key List.mem_cons_self).1
    have others := ih fun k hk => bare k (List.mem_cons_of_mem _ hk)
    cases path with
    | nil => exact one
    | cons key' path =>
      have whole : dotted (key :: key' :: path) = key.toList ++ '.' :: dotted (key' :: path) := rfl
      simp only [whole, List.length_append, List.length_cons] at others ⊢
      omega

theorem key?_dotted {path : List String} (nonempty : path ≠ []) (bare : ∀ key ∈ path, Bare key)
    (shallow : path.length ≤ maxDepth) (rest : List Char) :
    key? (dotted path ++ ' ' :: '=' :: rest) = some (path, '=' :: rest) := by
  have enough : path.length ≤ (dotted path ++ ' ' :: '=' :: rest).length + 1 := by
    have := length_le_dotted bare
    rw [List.length_append]
    omega
  rw [key?, dottedKey?_dotted nonempty bare rest enough, Option.filter_some, if_pos]
  exact decide_eq_true shallow

/-! ## The document -/

/-- A key is defined in an empty table. -/
theorem define_nested (key : String) (v : Setting) (path : List String) :
    (Entries.define key v path []).map settings =
      some (nested (path ++ [key]) v).entries := by
  induction path with
  | nil => rfl
  | cons k path ih =>
    obtain ⟨t, ht, hsettings⟩ := Option.map_eq_some_iff.1 ih
    have below : nested (path ++ [key]) v = .table (nested (path ++ [key]) v).entries := by
      cases path <;> rfl
    rw [Entries.define, List.lookup_nil, ht, Option.map_some, Option.map_some, List.nil_append,
      settings, settings, Node.setting, hsettings, ← below]
    rfl

theorem unifyLineEnds_eq {cs : List Char} (h : '\r' ∉ cs) : unifyLineEnds cs = cs := by
  fun_induction unifyLineEnds cs with
  | case1 rest ih => exact absurd List.mem_cons_self h
  | case2 c rest _ ih => rw [ih fun hr => h (List.mem_cons_of_mem c hr)]
  | case3 => rfl

theorem not_mem_quoted (s : String) : '\r' ∉ quoted s := by
  have digit (n : Nat) : hexDigit (n % 16) ≠ '\r' := by
    have := Nat.mod_lt n (show 0 < 16 by decide)
    generalize n % 16 = m at this
    interval_cases m <;> decide
  have char (c : Char) : '\r' ∉ escaped c := by
    unfold escaped
    split_ifs with special text
    · rcases special with rfl | rfl <;> decide
    · intro h
      obtain rfl := List.mem_singleton.1 h
      revert text
      decide
    · have small := toNat_of_not_isText (Bool.eq_false_iff.2 text)
      have high := digit (c.toNat / 16)
      rw [Nat.mod_eq_of_lt (by omega)] at high
      simp [Ne.symm high, Ne.symm (digit c.toNat)]
  simp only [quoted, List.mem_cons, List.mem_append, List.mem_flatMap, not_or, not_exists, not_and]
  exact ⟨by decide, fun c _ => char c, by decide, List.not_mem_nil⟩

theorem not_mem_dotted {path : List String} (bare : ∀ key ∈ path, Bare key) :
    '\r' ∉ dotted path := by
  have first {key : String} (h : Bare key) : '\r' ∉ key.toList := fun hr =>
    absurd (h.chars _ hr) (by decide)
  induction path with
  | nil => exact List.not_mem_nil
  | cons key path ih =>
    have here := first (bare key List.mem_cons_self)
    have others := ih fun k hk => bare k (List.mem_cons_of_mem _ hk)
    cases path with
    | nil => exact here
    | cons key' path =>
      have whole : dotted (key :: key' :: path) = key.toList ++ '.' :: dotted (key' :: path) := rfl
      rw [whole, List.mem_append, List.mem_cons, not_or, not_or]
      exact ⟨here, by decide, others⟩

theorem value_quoted (s : String) {rest : List Char} (apart : rest.head? ≠ some '"') :
    value maxDepth (quoted s ++ rest) = some (.text s, rest) := by
  have text := string?_quoted s apart
  rw [quoted, List.cons_append] at text ⊢
  rw [value, text, Option.map_some]

/-- A document is one assignment. -/
theorem assignment_document {path : List String} (nonempty : path ≠ [])
    (bare : ∀ key ∈ path, Bare key) (shallow : path.length ≤ maxDepth) (s : String) :
    ∃ root, settings root = (nested path (.text s)).entries ∧
      State.assignment ⟨[], []⟩ (dotted path ++ ' ' :: '=' :: ' ' :: (quoted s ++ ['\n'])) =
        some (⟨root, []⟩, ['\n']) := by
  have defined := define_nested (path.getLast nonempty) (.text s) path.dropLast
  rw [List.dropLast_append_getLast nonempty] at defined
  obtain ⟨root, hroot, hsettings⟩ := Option.map_eq_some_iff.1 defined
  have put : definePath path (.text s) [] = some root := by
    rw [definePath, List.getLast?_eq_some_getLast nonempty]
    exact hroot
  have space : skipSpace (' ' :: (quoted s ++ ['\n'])) = quoted s ++ ['\n'] := rfl
  refine ⟨root, hsettings, ?_⟩
  simp only [State.assignment, key?_dotted nonempty bare shallow, space,
    value_quoted s (show ['\n'].head? ≠ some '"' by decide), Entries.within, put,
    Option.bind_eq_bind, Option.bind_some, Option.pure_def]

/-- A line that starts with a key is an assignment. -/
theorem lines_of_bare {c : Char} (bare : isBareKeyChar c = true) (bound : Nat) (st : State)
    (rest : List Char) :
    lines (bound + 1) st (c :: rest) =
      (st.assignment (c :: rest)).bind fun found =>
        (endLine found.2).bind fun rest => lines bound found.1 rest := by
  have other : c ≠ '\n' ∧ c ≠ '#' ∧ c ≠ '[' := by
    refine ⟨?_, ?_, ?_⟩ <;> rintro rfl <;> revert bare <;> decide
  rw [lines, skipSpace_of_bare bare]
  split
  · rename_i h; cases h
  · rename_i h; exact absurd (List.cons.inj h).1 other.1
  · rename_i h; exact absurd (List.cons.inj h).1 other.2.1
  · rename_i h; exact absurd (List.cons.inj h).1 other.2.2
  · rfl

/-- **Every text is read back** from the document that defines it. -/
theorem read?_document {path : List String} (nonempty : path ≠ [])
    (bare : ∀ key ∈ path, Bare key) (shallow : path.length ≤ maxDepth) (s : String) :
    read? (document path s) = some (nested path (.text s)) := by
  let cs := dotted path ++ ' ' :: '=' :: ' ' :: (quoted s ++ ['\n'])
  obtain ⟨key, path', rfl⟩ := List.exists_cons_of_ne_nil nonempty
  obtain ⟨c, ds, hkey, hc⟩ := (bare key List.mem_cons_self).exists_cons
  obtain ⟨rest, hcs⟩ : ∃ rest, cs = c :: rest := by
    cases path' with
    | nil => exact ⟨_, by simp only [cs, dotted, hkey]; rfl⟩
    | cons key' path' => exact ⟨_, by simp only [cs, dotted, hkey]; rfl⟩
  have noMark : cs.dropWhile (· = '\uFEFF') = cs := by
    have : c ≠ '\uFEFF' := by rintro rfl; revert hc; decide
    rw [hcs, List.dropWhile_cons_of_neg (by simp [this])]
  have noReturn : '\r' ∉ cs := by
    simp only [cs, List.mem_append, List.mem_cons, not_or]
    exact ⟨not_mem_dotted bare, by decide, by decide, by decide, not_mem_quoted s, by decide,
      List.not_mem_nil⟩
  obtain ⟨root, hroot, assigned⟩ := assignment_document nonempty bare shallow s
  have table : nested (key :: path') (.text s) = .table (settings root) := by rw [hroot]; rfl
  have read : lines (cs.length + 1) ⟨[], []⟩ cs = some root := by
    rw [hcs, lines_of_bare hc, ← hcs, assigned]
    show lines cs.length ⟨root, []⟩ [] = some root
    rw [hcs]
    rfl
  rw [read?, document, String.toList_ofList]
  show (lines ((unifyLineEnds (cs.dropWhile (· = '\uFEFF'))).length + 1) _
    (unifyLineEnds (cs.dropWhile (· = '\uFEFF')))).map _ = _
  rw [noMark, unifyLineEnds_eq noReturn, read, table]
  rfl

end JobPipeline.Toml
