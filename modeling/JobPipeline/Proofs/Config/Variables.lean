import JobPipeline.Config.DotEnv
import JobPipeline.Config.Environment
import JobPipeline.Proofs.Config.Tree

/-!
# Variables of two sources

The variables of a process come first, those of a `.env` file behind them. What the file says by
itself is `DotEnv.stated`: the first line for each name counts. Of these the file adds the ones
whose names the process does not have (`load_eq`), and its values may refer to what the process has,
by name: they do not depend on the order of the variables (`stated_congr`).

Each variable writes to one place of the tree of settings (`layer_eq_runAll`). If no two of them get
in each other's way, then at most one name leads to a place. So the place has what the process says,
or else what the file says (`lastAt_beyond`), and the order does not matter (`lastAt_perm`).
-/

namespace JobPipeline

theorem lookup_filter {α : Type} {p : String → Bool} {k : String} (es : List (String × α))
    (h : p k = true) : (es.filter fun e => p e.1).lookup k = es.lookup k := by
  induction es with
  | nil => rfl
  | cons e es ih =>
    obtain ⟨k', v⟩ := e
    by_cases same : k = k'
    · subst same
      simp [h]
    · have other : (k == k') = false := beq_eq_false_iff_ne.2 same
      cases hk : p k' <;> simp [hk, List.lookup_cons, other, ih]

namespace DotEnv

/-- The variables with one more, unless there is one of its name. -/
def note (env : Environment) (key value : String) : Environment :=
  if (env.lookup key).isSome then env else env ++ [(key, value)]

/-- What lines say, up to the first malformed one; of several lines for one name the first counts.
The values are read over the variables of `env`. -/
def saying (env own : Environment) : List (Option (List Char)) → Environment
  | [] => own
  | none :: _ => own
  | some line :: lines => match line? env line with
    | none => own
    | some none => saying env own lines
    | some (some (key, value)) => saying (note env key value) (note own key value) lines

/-- What a file says. -/
def stated (env : Environment) (text : String) : Environment :=
  let cs := match text.toList with
    | '\uFEFF' :: rest => rest
    | cs => cs
  saying env [] (logicalLines .plain [] (physicalLines cs))

/-- The variables whose names an environment does not have. -/
def beyond (env own : Environment) : Environment := own.filter fun v => (env.lookup v.1).isNone

variable {base own : Environment}

theorem lookup_beyond (base own : Environment) (k : String) :
    (base ++ beyond base own).lookup k = (base.lookup k).or (own.lookup k) := by
  rw [List.lookup_append]
  cases h : base.lookup k with
  | some v => simp
  | none =>
    have kept : (base.lookup k).isNone = true := by rw [h]; rfl
    exact lookup_filter (p := fun k => (base.lookup k).isNone) own kept

theorem note_beyond (base own : Environment) (key value : String) :
    note (base ++ beyond base own) key value = base ++ beyond base (note own key value) := by
  have lookup := lookup_beyond base own key
  rw [note, note, lookup]
  cases hbase : base.lookup key with
  | some v =>
    cases hown : own.lookup key with
    | some w => simp
    | none => simp [beyond, hbase]
  | none =>
    cases hown : own.lookup key with
    | some w => simp
    | none => simp [beyond, hbase]

theorem loadLines_eq (base own : Environment) (lines : List (Option (List Char))) :
    loadLines (base ++ beyond base own) lines =
      base ++ beyond base (saying (base ++ beyond base own) own lines) := by
  induction lines generalizing own with
  | nil => rfl
  | cons line lines ih =>
    cases line with
    | none => rfl
    | some line =>
      rw [loadLines, saying]
      cases line? (base ++ beyond base own) line with
      | none => rfl
      | some assigned =>
        cases assigned with
        | none => exact ih own
        | some assigned =>
          obtain ⟨key, value⟩ := assigned
          have next := note_beyond base own key value
          show loadLines (note (base ++ beyond base own) key value) lines = _
          rw [next, ih, ← next]

/-- **A file adds what it says and the process does not have.** -/
theorem load_eq (env : Environment) (text : String) :
    load env text = env ++ beyond env (stated env text) := by
  have empty : env ++ beyond env [] = env := List.append_nil env
  have loaded := loadLines_eq env []
  rw [empty] at loaded
  exact loaded _

/-! ## The order of the variables -/

/-- Environments with the same value for each name. -/
def Alike (env env' : Environment) : Prop := ∀ k, env.lookup k = env'.lookup k

variable {env env' : Environment}

theorem Alike.note (h : Alike env env') (key value : String) :
    Alike (note env key value) (note env' key value) := by
  intro k
  rw [DotEnv.note, DotEnv.note, ← h key]
  split
  · exact h k
  · rw [List.lookup_append, List.lookup_append, h k]

theorem Alike.valueFrom (h : Alike env env') (state : ValueState) (out cs : List Char) :
    valueFrom env state out cs = valueFrom env' state out cs := by
  have value (name : List Char) : valueOf env name = valueOf env' name := by
    rw [valueOf, valueOf, h]
  fun_induction DotEnv.valueFrom env state out cs <;> grind [DotEnv.valueFrom]

theorem Alike.line? (h : Alike env env') (cs : List Char) : line? env cs = line? env' cs := by
  have assigned (cs : List Char) : assigned? env cs = assigned? env' cs := by
    unfold assigned?
    split
    · simp only [h.valueFrom]
    · rfl
  simp only [DotEnv.line?, assigned]

theorem Alike.saying (h : Alike env env') (own : Environment) (lines : List (Option (List Char))) :
    saying env own lines = saying env' own lines := by
  induction lines generalizing env env' own with
  | nil => rfl
  | cons line lines ih =>
    cases line with
    | none => rfl
    | some line =>
      rw [DotEnv.saying, DotEnv.saying, h.line?]
      cases DotEnv.line? env' line with
      | none => rfl
      | some assigned =>
        cases assigned with
        | none => exact ih h own
        | some assigned => exact ih (h.note _ _) _

/-- A file says the same over variables in another order. -/
theorem stated_congr (h : Alike env env') (text : String) : stated env text = stated env' text :=
  h.saying [] _

end DotEnv

/-! ## Where variables lead -/

open Setting (Write pathOf namedWrites runAll leadsTo lastAt)

/-- A step as it is taken: the case of a key does not matter. -/
def PathStep.lowered : PathStep → PathStep
  | .key name => .key (lower name)
  | .index i => .index i

theorem Setting.lowered_of_leadsTo {p : List String} {path : List PathStep} (h : leadsTo p path) :
    path.map PathStep.lowered = p.map .key := by
  induction p generalizing path with
  | nil =>
    cases path with
    | nil => rfl
    | cons step path => cases h
  | cons k p ih =>
    cases path with
    | nil => cases h
    | cons step path =>
      cases step with
      | index i => cases h
      | key name =>
        obtain ⟨same, below⟩ := Bool.and_eq_true_iff.1 h
        rw [List.map_cons, List.map_cons, ih below, PathStep.lowered, beq_iff_eq.1 same]

theorem Setting.namedWrites_of_not_table {value : Setting} (h : value.isTable = false)
    (name : String) : namedWrites name value = [⟨pathOf name, value⟩] := by
  rw [namedWrites]
  cases hkeys : keys? (pathOf name) with
  | none => rfl
  | some ks =>
    rw [eq_of_keys? hkeys]
    cases value <;> first | rfl | cases h

/-- Of the items of a list that pass a test, if they are all the same, the order does not matter. -/
theorem find?_perm {α : Type} {l l' : List α} {q : α → Bool} (perm : l.Perm l')
    (sole : ∀ a ∈ l, ∀ b ∈ l, q a → q b → a = b) : l.find? q = l'.find? q := by
  cases h : l'.find? q with
  | none =>
    rw [List.find?_eq_none] at h ⊢
    exact fun a ha => h a (perm.subset ha)
  | some b =>
    have hb := perm.symm.subset (List.mem_of_find?_eq_some h)
    cases h' : l.find? q with
    | none => exact absurd (List.find?_some h) (List.find?_eq_none.1 h' b hb)
    | some a =>
      rw [sole a (List.mem_of_find?_eq_some h') b hb (List.find?_some h') (List.find?_some h)]

namespace Environment

/-- The names are different. -/
def Distinct (env : Environment) : Prop := (env.map Prod.fst).Nodup

theorem Distinct.eq {env : Environment} (distinct : env.Distinct) {u v : String × String}
    (hu : u ∈ env) (hv : v ∈ env) (same : u.1 = v.1) : u = v :=
  List.inj_on_of_nodup_map distinct hu hv same

theorem lookup_eq_find? (env : Environment) (k : String) :
    env.lookup k = (env.find? fun v => k == v.1).map Prod.snd := by
  induction env with
  | nil => rfl
  | cons v env ih =>
    rw [List.lookup_cons, List.find?_cons, ih]
    cases k == v.1 <;> rfl

/-- The variables have the same values in any order. -/
theorem Distinct.alike {env env' : Environment} (distinct : env.Distinct) (perm : env.Perm env') :
    DotEnv.Alike env env' := by
  intro k
  rw [lookup_eq_find?, lookup_eq_find?, find?_perm perm]
  intro u hu v hv ku kv
  exact distinct.eq hu hv ((beq_iff_eq.1 ku).symm.trans (beq_iff_eq.1 kv))

/-- What the variables write, in their order. -/
def writes (namePrefix : String) (env : Environment) : List Write :=
  env.filterMap fun v => (place? namePrefix v.1).map fun place => ⟨pathOf place, setting v.2⟩

theorem setting_not_table (value : String) : (setting value).isTable = false := by
  rw [setting]
  split
  · rfl
  · split
    · rfl
    · cases Numeral.int64? value with
      | some n => rfl
      | none => cases Numeral.decimal? value <;> rfl

theorem layer_eq_runAll (namePrefix : String) (env : Environment) (root : Setting) :
    layer namePrefix env root = runAll (writes namePrefix env) root := by
  induction env generalizing root with
  | nil => rfl
  | cons v env ih =>
    obtain ⟨name, value⟩ := v
    rw [writes, List.filterMap_cons]
    cases hplace : place? namePrefix name with
    | none =>
      have skipped : layer namePrefix ((name, value) :: env) root = layer namePrefix env root := by
        simp only [layer, List.foldl_cons, hplace]
      exact skipped.trans (ih root)
    | some place =>
      have written : layer namePrefix ((name, value) :: env) root =
          layer namePrefix env (runAll [⟨pathOf place, setting value⟩] root) := by
        rw [← Setting.namedWrites_of_not_table (setting_not_table value),
          ← Setting.assignNamed_eq_runAll]
        simp only [layer, List.foldl_cons, hplace]
      exact written.trans (ih _)

/-- Whether a variable is for a place. -/
def leads (namePrefix : String) (p : List String) (v : String × String) : Bool :=
  (place? namePrefix v.1).any fun place => leadsTo p (pathOf place)

theorem lastAt_writes (namePrefix : String) (p : List String) (env : Environment) :
    lastAt p (writes namePrefix env) =
      (env.reverse.find? (leads namePrefix p)).map fun v => setting v.2 := by
  have test (v : String × String) :
      ((place? namePrefix v.1).map fun place => (⟨pathOf place, setting v.2⟩ : Write)).any
        (fun w => leadsTo p w.path && !w.value.isTable) = leads namePrefix p v := by
    rw [leads]
    cases place? namePrefix v.1 with
    | none => rfl
    | some place => simp [setting_not_table]
  rw [lastAt, writes, ← List.filterMap_reverse, List.find?_filterMap, funext test]
  cases h : env.reverse.find? (leads namePrefix p) with
  | none => rfl
  | some v =>
    have found := List.find?_some h
    rw [leads, Option.any_eq_true] at found
    obtain ⟨place, hplace, -⟩ := found
    simp [hplace]

/-- The place that a variable is for, as a path of steps that are taken. -/
def keyPath? (namePrefix name : String) : Option (List PathStep) :=
  (place? namePrefix name).map fun place => (pathOf place).map PathStep.lowered

/-- No two variables of different names are for the same place, or for places one of which is on the
way to the other. -/
def Apart (namePrefix : String) (env : Environment) : Prop :=
  ∀ u ∈ env, ∀ v ∈ env, u.1 ≠ v.1 →
    ∀ a ∈ keyPath? namePrefix u.1, ∀ b ∈ keyPath? namePrefix v.1, ¬a <+: b

instance (namePrefix : String) (env : Environment) : Decidable (Apart namePrefix env) :=
  inferInstanceAs (Decidable (∀ u ∈ env, ∀ v ∈ env, u.1 ≠ v.1 →
    ∀ a ∈ keyPath? namePrefix u.1, ∀ b ∈ keyPath? namePrefix v.1, ¬a <+: b))

variable {namePrefix : String} {p : List String} {env env' base own : Environment}

theorem keyPath?_of_leads {v : String × String} (h : leads namePrefix p v) :
    keyPath? namePrefix v.1 = some (p.map .key) := by
  obtain ⟨place, hplace, leads⟩ := (Option.any_eq_true _ _).1 h
  rw [keyPath?, hplace, Option.map_some, Setting.lowered_of_leadsTo leads]

/-- The variables for one place have one name. -/
theorem Apart.sole (apart : Apart namePrefix env) {u v : String × String} (hu : u ∈ env)
    (hv : v ∈ env) (uLeads : leads namePrefix p u) (vLeads : leads namePrefix p v) : u.1 = v.1 := by
  by_contra other
  exact apart u hu v hv other _ (keyPath?_of_leads uLeads) _ (keyPath?_of_leads vLeads)
    List.prefix_rfl

theorem lastAt_perm (distinct : env.Distinct) (apart : Apart namePrefix env)
    (perm : env.Perm env') :
    lastAt p (writes namePrefix env) = lastAt p (writes namePrefix env') := by
  have backwards : env.reverse.Perm env'.reverse :=
    (List.reverse_perm env).trans (perm.trans (List.reverse_perm env').symm)
  rw [lastAt_writes, lastAt_writes, find?_perm backwards]
  intro u hu v hv uLeads vLeads
  have hu := List.mem_reverse.1 hu
  have hv := List.mem_reverse.1 hv
  exact distinct.eq hu hv (apart.sole hu hv uLeads vLeads)

/-- Of two sources that do not get in each other's way, the first one counts. -/
theorem lastAt_beyond (apart : Apart namePrefix (base ++ own)) :
    lastAt p (writes namePrefix (base ++ DotEnv.beyond base own)) =
      (lastAt p (writes namePrefix base)).or (lastAt p (writes namePrefix own)) := by
  simp only [lastAt_writes, List.reverse_append, List.find?_append, DotEnv.beyond,
    ← List.filter_reverse, List.find?_filter]
  cases h : base.reverse.find? (leads namePrefix p) with
  | some u =>
    -- a variable of the file for the same place has the same name, so it is not added
    have hu := List.mem_reverse.1 (List.mem_of_find?_eq_some h)
    have none : own.reverse.find? (fun v =>
        decide ((base.lookup v.1).isNone = true ∧ leads namePrefix p v = true)) = none := by
      rw [List.find?_eq_none]
      intro v hv
      rw [decide_eq_true_iff]
      rintro ⟨absent, vLeads⟩
      have same := apart.sole (List.mem_append_left _ hu)
        (List.mem_append_right _ (List.mem_reverse.1 hv)) (List.find?_some h) vLeads
      rw [Option.isNone_iff_eq_none, List.lookup_eq_none_iff] at absent
      simpa [same] using absent u hu
    rw [none]
    rfl
  | none =>
    have all : own.reverse.find? (fun v =>
        decide ((base.lookup v.1).isNone = true ∧ leads namePrefix p v = true)) =
          own.reverse.find? (leads namePrefix p) := by
      refine List.find?_congr fun v hv => ?_
      cases vLeads : leads namePrefix p v with
      | false => simp
      | true =>
        have absent : base.lookup v.1 = none := by
          rw [List.lookup_eq_none_iff]
          intro u hu
          rw [bne_iff_ne]
          intro same
          have place : leads namePrefix p u = leads namePrefix p v := by rw [leads, leads, same]
          exact List.find?_eq_none.1 h u (List.mem_reverse.2 hu) (place.trans vLeads)
        simp [absent]
    rw [all, Option.or_none, Option.map_none, Option.none_or]

end Environment
end JobPipeline
