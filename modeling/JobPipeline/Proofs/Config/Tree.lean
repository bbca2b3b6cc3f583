import JobPipeline.Config.Tree
import Mathlib

/-!
# What writing does to one place of a tree

A layer of settings comes down to single `Write`s: a table that is put somewhere is written entry by
entry (`assign_eq_runAll`). For one place of the tree, most writes do not matter. A write that goes
elsewhere leaves the place as it was; one that leads there replaces what it has, unless it is an
empty table. Two kinds of writes would do harm: a value that is no table on the way to the place,
and anything behind the place. A write that is `Clear` of the place does neither.

So after writes that are clear of a place, the place has what the last of them has put there
(`at?_runAll`).
-/

namespace JobPipeline
namespace Setting

/-- Whether the value is a table. -/
def isTable : Setting → Bool
  | .table _ => true
  | _ => false

/-- What stands at a place of a tree, if anything does. -/
def at? : List String → Setting → Option Setting
  | [], s => some s
  | k :: p, s => (s.get? k).bind (at? p)

/-- A value and the path that it is put at the end of. -/
structure Write where
  path : List PathStep
  value : Setting

def Write.run (w : Write) (root : Setting) : Setting := assign w.path w.value root

/-- The tree after some writes. -/
def runAll (ws : List Write) (root : Setting) : Setting := ws.foldl (fun root w => w.run root) root

/-! ## Tables, entry by entry -/

section
variable {key : String} {value parent : Setting} {es : List (String × Setting)}

theorem setEntry_setEntry {α : Type} (key : String) (a b : α) (es : List (String × α)) :
    setEntry key a (setEntry key b es) = setEntry key a es := by
  induction es with
  | nil => simp [setEntry]
  | cons e es ih =>
    obtain ⟨k, v⟩ := e
    by_cases same : k = key
    · simp [setEntry, same]
    · simp [setEntry, same, ih]

theorem get?_replace (key : String) (value parent : Setting) (k : String) :
    (replace key value parent).get? k = if k = lower key then some value else parent.get? k :=
  lookup_setEntry (lower key) value parent.entries k

theorem place_replace : (replace key value parent).place key = value := by
  simp [place, get?_replace]

theorem replace_replace (other : Setting) :
    replace key value (replace key other parent) = replace key value parent := by
  simp [replace, entries, setEntry_setEntry]

/-- Writes below one key, one after the other, are a single write to that key. -/
theorem foldl_replace {ι : Type} (f : ι → Setting → Setting) (i : ι) (items : List ι) :
    (i :: items).foldl (fun root i => replace key (f i (root.place key)) root) parent =
      replace key ((i :: items).foldl (fun root i => f i root) (parent.place key)) parent := by
  induction items generalizing i parent with
  | nil => rfl
  | cons j items ih =>
    rw [List.foldl_cons, ih, List.foldl_cons, place_replace, replace_replace]
    rfl

/-- A place that nobody has filled is like an empty table. -/
theorem put_vacant (key : String) (value : Setting) :
    put key value .vacant = put key value (.table []) := by
  cases value <;> rfl

theorem putAll_eq_foldl (es : List (String × Setting)) (target : Setting) :
    putAll es target = es.foldl (fun target e => put e.1 e.2 target) target := by
  induction es generalizing target with
  | nil => rfl
  | cons e es ih => rw [putAll, ih, List.foldl_cons]

theorem put_table (e : String × Setting) :
    put key (.table (e :: es)) parent =
      (e :: es).foldl (fun root e => replace key (put e.1 e.2 (root.place key)) root) parent := by
  rw [foldl_replace fun (e : String × Setting) => put e.1 e.2, put, putAll_eq_foldl,
    List.foldl_cons, List.foldl_cons, place]
  cases parent.get? (lower key) with
  | none => simp only [Option.getD_none, put_vacant]
  | some s => rfl

end

/-- A path of keys. -/
def keyPath (ks : List String) : List PathStep := ks.map .key

theorem assign_key_cons (k k' : String) (ks : List String) (value root : Setting) :
    assign (keyPath (k :: k' :: ks)) value root =
      replace k (assign (keyPath (k' :: ks)) value (root.place k)) root := rfl

/-- A table is put at the end of a path of keys entry by entry. -/
theorem assign_table (k : String) (ks : List String) (e : String × Setting)
    (es : List (String × Setting)) (root : Setting) :
    assign (keyPath (k :: ks)) (.table (e :: es)) root =
      (e :: es).foldl (fun root e => assign (keyPath (k :: ks ++ [e.1])) e.2 root) root := by
  induction ks generalizing k root with
  | nil => exact put_table e
  | cons k' ks ih =>
    rw [assign_key_cons, ih]
    exact (foldl_replace (fun (e : String × Setting) => assign (keyPath (k' :: ks ++ [e.1])) e.2)
      e es).symm

mutual

/-- The writes that putting a value at the end of a path of keys comes down to. -/
def writes (ks : List String) : Setting → List Write
  | .table es => if es.isEmpty then [⟨keyPath ks, .table []⟩] else entryWrites ks es
  | .vacant => [⟨keyPath ks, .vacant⟩]
  | .bool b => [⟨keyPath ks, .bool b⟩]
  | .integer n => [⟨keyPath ks, .integer n⟩]
  | .real x => [⟨keyPath ks, .real x⟩]
  | .text s => [⟨keyPath ks, .text s⟩]
  | .list vs => [⟨keyPath ks, .list vs⟩]

def entryWrites (ks : List String) : List (String × Setting) → List Write
  | [] => []
  | (key, value) :: rest => writes (ks ++ [key]) value ++ entryWrites ks rest

end

theorem runAll_append (vs ws : List Write) (root : Setting) :
    runAll (vs ++ ws) root = runAll ws (runAll vs root) := List.foldl_append

mutual

theorem assign_eq_runAll (k : String) (ks : List String) (root : Setting) : (value : Setting) →
    assign (keyPath (k :: ks)) value root = runAll (writes (k :: ks) value) root
  | .table [] => rfl
  | .table (e :: es) => by
    rw [assign_table, foldl_eq_runAll]
    rfl
  | .vacant => rfl
  | .bool _ => rfl
  | .integer _ => rfl
  | .real _ => rfl
  | .text _ => rfl
  | .list _ => rfl

theorem foldl_eq_runAll (k : String) (ks : List String) (root : Setting) :
    (es : List (String × Setting)) →
    es.foldl (fun root e => assign (keyPath (k :: ks ++ [e.1])) e.2 root) root =
      runAll (entryWrites (k :: ks) es) root
  | [] => rfl
  | (key, value) :: rest => by
    rw [List.foldl_cons, foldl_eq_runAll k ks _ rest, entryWrites, runAll_append]
    congr 1
    exact assign_eq_runAll k (ks ++ [key]) root value

end

/-! ## Names for places -/

/-- The keys of a path, if it has nothing else. -/
def keys? : List PathStep → Option (List String)
  | [] => some []
  | .key k :: path => (keys? path).map (k :: ·)
  | .index _ :: _ => none

theorem eq_of_keys? {path : List PathStep} {ks : List String} (h : keys? path = some ks) :
    path = keyPath ks := by
  induction path generalizing ks with
  | nil => cases h; rfl
  | cons step path ih =>
    cases step with
    | index i => cases h
    | key k =>
      obtain ⟨ks', hpath, rfl⟩ := Option.map_eq_some_iff.1 h
      rw [ih hpath]
      rfl

/-- The place that a name stands for. -/
def pathOf (name : String) : List PathStep := (PathStep.path? name).getD [.key name]

/-- The writes that putting a value at a named place comes down to. -/
def namedWrites (name : String) (value : Setting) : List Write :=
  match keys? (pathOf name) with
  | some ks => writes ks value
  | none => [⟨pathOf name, value⟩]

theorem pathOf_ne_nil (name : String) : pathOf name ≠ [] := by
  rw [pathOf]
  cases hpath : PathStep.path? name with
  | none => exact List.cons_ne_nil _ _
  | some path =>
    rw [PathStep.path?] at hpath
    split at hpath
    · cases hpath
    · obtain ⟨rest, -, rfl⟩ := Option.map_eq_some_iff.1 hpath
      exact List.cons_ne_nil _ _

theorem assignNamed_eq_runAll (name : String) (value root : Setting) :
    assignNamed name value root = runAll (namedWrites name value) root := by
  have named : assignNamed name value root = assign (pathOf name) value root := by
    rw [assignNamed, pathOf]
    cases PathStep.path? name <;> rfl
  rw [named, namedWrites]
  cases hkeys : keys? (pathOf name) with
  | none => rfl
  | some ks =>
    have path := eq_of_keys? hkeys
    cases ks with
    | nil => exact absurd path (pathOf_ne_nil name)
    | cons k ks => rw [path, assign_eq_runAll]

mutual

/-- A value is written behind the place it is put at, if not there. -/
theorem path_of_mem_writes {ks : List String} {w : Write} : {value : Setting} →
    w ∈ writes ks value → ∃ more, w.path = keyPath (ks ++ more)
  | .table [], h => ⟨[], by rw [List.mem_singleton.1 h, List.append_nil]⟩
  | .table (e :: es), h => path_of_mem_entryWrites h
  | .vacant, h => ⟨[], by rw [List.mem_singleton.1 h, List.append_nil]⟩
  | .bool _, h => ⟨[], by rw [List.mem_singleton.1 h, List.append_nil]⟩
  | .integer _, h => ⟨[], by rw [List.mem_singleton.1 h, List.append_nil]⟩
  | .real _, h => ⟨[], by rw [List.mem_singleton.1 h, List.append_nil]⟩
  | .text _, h => ⟨[], by rw [List.mem_singleton.1 h, List.append_nil]⟩
  | .list _, h => ⟨[], by rw [List.mem_singleton.1 h, List.append_nil]⟩

theorem path_of_mem_entryWrites {ks : List String} {w : Write} : {es : List (String × Setting)} →
    w ∈ entryWrites ks es → ∃ more, w.path = keyPath (ks ++ more)
  | (key, value) :: rest, h => by
    rcases List.mem_append.1 h with here | behind
    · obtain ⟨more, hpath⟩ := path_of_mem_writes here
      exact ⟨key :: more, by rw [hpath, List.append_assoc, List.singleton_append]⟩
    · exact path_of_mem_entryWrites behind

end

theorem path_ne_nil_of_mem_namedWrites {name : String} {value : Setting} {w : Write}
    (h : w ∈ namedWrites name value) : w.path ≠ [] := by
  rw [namedWrites] at h
  cases hkeys : keys? (pathOf name) with
  | none =>
    rw [hkeys] at h
    rw [List.mem_singleton.1 h]
    exact pathOf_ne_nil name
  | some ks =>
    rw [hkeys] at h
    obtain ⟨more, hpath⟩ := path_of_mem_writes h
    have named := eq_of_keys? hkeys ▸ pathOf_ne_nil name
    cases ks with
    | nil => exact absurd rfl named
    | cons k ks => rw [hpath]; exact List.cons_ne_nil _ _

/-! ## One place -/

/-- Whether a path leads to a place. The case of its keys does not matter. -/
def leadsTo : List String → List PathStep → Bool
  | [], [] => true
  | k :: p, .key n :: path => lower n == k && leadsTo p path
  | _, _ => false

/-- A write at the end of a path does no harm to a place. Where it leads there, it is no table with
something in it. On the way there it puts an empty table at most, and it does not go on behind the
place. -/
def Clear : List String → List PathStep → Setting → Prop
  | [], [], value => value = .table [] ∨ value.isTable = false
  | [], _ :: _, _ => False
  | _ :: _, [], value => value = .table []
  | k :: p, .key n :: path, value => lower n = k → Clear p path value
  | _ :: _, .index _ :: _, _ => False

instance (value : Setting) : Decidable (value = .table []) :=
  match value with
  | .table [] => isTrue rfl
  | .table (_ :: _) => isFalse nofun
  | .vacant | .bool _ | .integer _ | .real _ | .text _ | .list _ => isFalse nofun

instance decidableClear : (p : List String) → (path : List PathStep) → (value : Setting) →
    Decidable (Clear p path value)
  | [], [], value => inferInstanceAs (Decidable (value = .table [] ∨ value.isTable = false))
  | [], _ :: _, _ => isFalse id
  | _ :: _, [], value => inferInstanceAs (Decidable (value = .table []))
  | k :: p, .key n :: path, value =>
    have := decidableClear p path value
    inferInstanceAs (Decidable (lower n = k → Clear p path value))
  | _ :: _, .index _ :: _, _ => isFalse id

/-- Nothing but tables stands on the way to a place. -/
def Way : List String → Setting → Prop
  | [], _ => True
  | k :: p, s => s.isTable = true ∧ ∀ v, s.get? k = some v → Way p v

theorem way_empty (p : List String) : Way p (.table []) := by
  cases p with
  | nil => trivial
  | cons k p => exact ⟨rfl, nofun⟩

section
variable {k n : String} {p : List String} {path : List PathStep} {value root : Setting}

theorem put_of_not_table (h : value.isTable = false) : put n value root = replace n value root := by
  cases value <;> first | rfl | cases h

/-- Putting something at a key, or behind it, replaces what the key has. -/
theorem exists_replace (n : String) (path : List PathStep) (value root : Setting) :
    ∃ new, assign (.key n :: path) value root = replace n new root := by
  cases path with
  | nil => cases value <;> exact ⟨_, rfl⟩
  | cons step path => exact ⟨_, rfl⟩

/-- A path through a key leaves the others alone. -/
theorem at?_of_ne (path : List PathStep) (value : Setting) (other : lower n ≠ k)
    (way : Way (k :: p) root) :
    Way (k :: p) (assign (.key n :: path) value root) ∧
      at? (k :: p) (assign (.key n :: path) value root) = at? (k :: p) root := by
  obtain ⟨new, hnew⟩ := exists_replace n path value root
  have same : (replace n new root).get? k = root.get? k := by
    rw [get?_replace, if_neg (Ne.symm other)]
  rw [hnew]
  exact ⟨⟨rfl, fun v hv => way.2 v (same ▸ hv)⟩, by rw [at?, same, at?]⟩

/-- What a key has, to go on from: an empty table if it has nothing. -/
theorem way_below (way : Way (k :: p) root) : Way p ((root.get? k).getD (.table [])) := by
  cases h : root.get? k with
  | none => exact way_empty p
  | some v => exact way.2 v h

theorem at?_below (k : String) {k' : String} (p : List String) (root : Setting) :
    at? (k' :: p) ((root.get? k).getD (.table [])) = at? (k :: k' :: p) root := by
  show _ = (root.get? k).bind (at? (k' :: p))
  cases root.get? k <;> rfl

/-- A key that has nothing is gone on from as if it had an empty table. -/
theorem assign_place (m : String) (path : List PathStep) (value root : Setting) :
    assign (.key m :: path) value (root.place n) =
      assign (.key m :: path) value ((root.get? (lower n)).getD (.table [])) := by
  rw [place]
  cases root.get? (lower n) with
  | some v => rfl
  | none =>
    cases path with
    | nil => exact put_vacant m value
    | cons step path => rfl

/-- What is put at a key is what a place behind it is looked up in. -/
theorem at?_replace {new : Setting} (root : Setting) (way : Way p new) :
    Way (lower n :: p) (replace n new root) ∧
      at? (lower n :: p) (replace n new root) = at? p new := by
  have here : (replace n new root).get? (lower n) = some new := by rw [get?_replace, if_pos rfl]
  refine ⟨⟨rfl, fun v hv => ?_⟩, by rw [at?, here, Option.bind_some]⟩
  rw [here] at hv
  cases hv
  exact way

/-- What a write leaves at a place that it does no harm to. -/
theorem at?_assign (nonempty : path ≠ []) (clear : Clear p path value) (way : Way p root) :
    Way p (assign path value root) ∧
      at? p (assign path value root) =
        if leadsTo p path then
          if value.isTable then some ((at? p root).getD (.table [])) else some value
        else at? p root := by
  induction p generalizing path root with
  | nil =>
    cases path with
    | nil => exact absurd rfl nonempty
    | cons step path => cases clear
  | cons k p ih =>
    match path, nonempty, clear with
    | .key n :: path, _, clear =>
      by_cases same : lower n = k
      · subst same
        have clear := clear rfl
        match p, path, clear with
        | [], [], .inl isEmpty =>
          subst isEmpty
          obtain ⟨way', at'⟩ := at?_replace root (way_below way)
          exact ⟨way', at'.trans (by simp [leadsTo, isTable, at?])⟩
        | [], [], .inr other =>
          have after : assign [.key n] value root = replace n value root := put_of_not_table other
          obtain ⟨way', at'⟩ : Way [lower n] (replace n value root) ∧ _ := at?_replace root trivial
          rw [after]
          exact ⟨way', at'.trans (by simp [leadsTo, other, at?])⟩
        | k' :: p, [], isEmpty =>
          subst isEmpty
          obtain ⟨way', at'⟩ := at?_replace root (way_below way)
          exact ⟨way', at'.trans (by simp [at?_below, leadsTo])⟩
        | k' :: p, .key m :: path, clear =>
          have after : assign (.key n :: .key m :: path) value root = replace n
              (assign (.key m :: path) value ((root.get? (lower n)).getD (.table []))) root := by
            rw [← assign_place]
            rfl
          obtain ⟨below, at'⟩ := ih (List.cons_ne_nil _ _) clear (way_below way)
          obtain ⟨way', at''⟩ := at?_replace root below
          rw [after]
          exact ⟨way', at''.trans (at'.trans (by simp [at?_below, leadsTo]))⟩
      · have leads : leadsTo (k :: p) (.key n :: path) = false := by
          simp [leadsTo, same]
        obtain ⟨way', same'⟩ := at?_of_ne path value same way
        exact ⟨way', by rw [leads]; exact same'⟩

end

/-! ## Many writes -/

/-- What the last of some writes has put at a place. An empty table does not count. -/
def lastAt (p : List String) (ws : List Write) : Option Setting :=
  (ws.reverse.find? fun w => leadsTo p w.path && !w.value.isTable).map Write.value

/-- The writes do no harm to a place. -/
def Spare (p : List String) (ws : List Write) : Prop :=
  ∀ w ∈ ws, w.path ≠ [] ∧ Clear p w.path w.value

theorem lastAt_append (p : List String) (vs ws : List Write) :
    lastAt p (vs ++ ws) = (lastAt p ws).or (lastAt p vs) := by
  rw [lastAt, List.reverse_append, List.find?_append]
  cases h : ws.reverse.find? fun w => leadsTo p w.path && !w.value.isTable <;> simp [lastAt, h]

/-- What writes that do no harm to a place leave there: what the last of them has put there, and if
there is none, an empty table at most. -/
def outcome (p : List String) (ws : List Write) : Option Setting :=
  (lastAt p ws).or (if ws.any fun w => leadsTo p w.path then some (.table []) else none)

/-- **The last write to a place counts**, among writes that do no harm to it. -/
theorem at?_runAll {p : List String} {ws : List Write} (nonempty : p ≠ []) (spare : Spare p ws) :
    Way p (runAll ws (.table [])) ∧ at? p (runAll ws (.table [])) = outcome p ws := by
  induction ws using List.reverseRecOn with
  | nil =>
    refine ⟨way_empty p, ?_⟩
    cases p with
    | nil => exact absurd rfl nonempty
    | cons k p => rfl
  | append_singleton ws w ih =>
    obtain ⟨way, before⟩ := ih fun w' hw' => spare w' (List.mem_append_left _ hw')
    obtain ⟨hpath, clear⟩ := spare w (List.mem_append_right _ (List.mem_singleton_self w))
    obtain ⟨way', after⟩ := at?_assign hpath clear way
    have one : lastAt p [w] =
        if leadsTo p w.path && !w.value.isTable then some w.value else none := by
      simp only [lastAt, List.reverse_singleton, List.find?_singleton]
      split <;> rfl
    have run : runAll (ws ++ [w]) (.table []) = assign w.path w.value (runAll ws (.table [])) :=
      runAll_append ws [w] _
    refine ⟨run ▸ way', ?_⟩
    rw [run, after, before, outcome, outcome, lastAt_append, one, List.any_append]
    by_cases leads : leadsTo p w.path = true
    · by_cases table : w.value.isTable = true
      · -- an empty table is there, unless there is something already
        cases lastAt p ws with
        | some v => simp [leads, table]
        | none =>
          simp only [leads, table, Bool.not_true, Bool.and_false, Bool.false_eq_true, if_false,
            if_true, Option.none_or, List.any_cons, Bool.true_or, Bool.or_true]
          split <;> rfl
      · simp [leads, table]
    · simp [leads]

end Setting
end JobPipeline
