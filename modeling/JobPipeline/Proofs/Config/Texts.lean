import JobPipeline.Proofs.Config.Precedence
import JobPipeline.Proofs.Number.Numeral
import JobPipeline.Proofs.Toml.Quoted
import Mathlib

/-!
# Texts from variables and texts from files

A text that a file sets is taken as it is. The value of a variable is read as a truth value or a
number if it can be, even for a field that is a text, and such a field gets what the number or the
truth value is shown as (`Environment.textOf`): a version `1.10` comes out as `1.1`. `Faithful` are
the texts for which this is the same text.

`text_overrides` says so for all text fields and all texts. Either way of setting a field leaves the
rest of the configuration at its defaults.
-/

namespace JobPipeline

/-! ## What becomes of a text on its way through a variable -/

namespace Environment

/-- The text that a field gets from a variable. -/
def textOf (value : String) : String :=
  match setting value with
  | .bool b => if b then "true" else "false"
  | .integer n => toString n
  | .real x => Layout.plain.text x
  | _ => value

/-- A text that comes through a variable as it is: a truth value or an integer as it is shown, or
else no truth value, no integer, and no decimal number that is shown in another way. -/
def Faithful (s : String) : Prop :=
  s = "true" ∨ s = "false" ∨
  (∃ n : Int, -9223372036854775808 ≤ n ∧ n < 9223372036854775808 ∧ s = toString n) ∨
  (lower s ≠ "true" ∧ lower s ≠ "false" ∧ Numeral.int64? s = none ∧
    ∀ x, Numeral.decimal? s = some x → Layout.plain.text x = s)

/-- The ways to read the value of a variable. -/
inductive Reads (s : String) : Prop
  | yes (word : lower s = "true") (reads : setting s = .bool true)
  | no (word : lower s = "false") (reads : setting s = .bool false)
  | integer {n : Int} (noWord : lower s ≠ "true" ∧ lower s ≠ "false")
      (found : Numeral.int64? s = some n) (reads : setting s = .integer n)
  | real {x : Binary64} (noWord : lower s ≠ "true" ∧ lower s ≠ "false")
      (noInteger : Numeral.int64? s = none) (found : Numeral.decimal? s = some x)
      (reads : setting s = .real x)
  | text (noWord : lower s ≠ "true" ∧ lower s ≠ "false") (noInteger : Numeral.int64? s = none)
      (noReal : Numeral.decimal? s = none) (reads : setting s = .text s)

theorem reads (s : String) : Reads s := by
  by_cases yes : lower s = "true"
  · exact .yes yes (by simp [setting, yes])
  by_cases no : lower s = "false"
  · exact .no no (by simp [setting, no])
  cases int : Numeral.int64? s with
  | some n => exact .integer ⟨yes, no⟩ int (by simp [setting, yes, no, int])
  | none =>
    cases real : Numeral.decimal? s with
    | some x => exact .real ⟨yes, no⟩ int real (by simp [setting, yes, no, int, real])
    | none => exact .text ⟨yes, no⟩ int real (by simp [setting, yes, no, int, real])

theorem text?_setting (s : String) : (setting s).text? = some (textOf s) := by
  cases reads s with
  | _ => simp [textOf, Setting.text?, *]

theorem lowerChar_digit {c : Char} (digit : Numeral.isDigit c = true) : lowerChar c = [c] :=
  Numeral.forall_digit (P := fun c => lowerChar c = [c]) (by decide) digit

/-- An integer is no truth value. -/
theorem lower_toString_ne (n : Int) : lower (toString n) ≠ "true" ∧ lower (toString n) ≠ "false" := by
  obtain ⟨c, cs, hn, hc⟩ := Numeral.toString_head n
  have same : lowerChar c = [c] := by
    rcases hc with rfl | hc
    · decide
    · exact lowerChar_digit hc
  have head (w : String) (h : lower (toString n) = w) : w.toList.head? = some c := by
    rw [← h, lower, String.toList_ofList, hn, List.flatMap_cons, same]
    rfl
  have noLetter : c ≠ 't' ∧ c ≠ 'f' := by
    constructor <;> rintro rfl <;> revert hc <;> decide
  exact ⟨fun h => noLetter.1 (Option.some.inj (head _ h)).symm,
    fun h => noLetter.2 (Option.some.inj (head _ h)).symm⟩

/-- **Which texts come through as they are.** -/
theorem textOf_eq_iff (s : String) : textOf s = s ↔ Faithful s := by
  constructor
  · intro same
    cases reads s with
    | yes word reads => exact .inl (by simpa [textOf, reads] using same.symm)
    | no word reads => exact .inr (.inl (by simpa [textOf, reads] using same.symm))
    | integer noWord found reads =>
      obtain ⟨low, high⟩ := Numeral.range_of_int64? found
      exact .inr (.inr (.inl ⟨_, low, high, by simpa [textOf, reads] using same.symm⟩))
    | real noWord noInteger found reads =>
      refine .inr (.inr (.inr ⟨noWord.1, noWord.2, noInteger, ?_⟩))
      intro x hx
      rw [found] at hx
      cases hx
      simpa [textOf, reads] using same
    | text noWord noInteger noReal reads =>
      refine .inr (.inr (.inr ⟨noWord.1, noWord.2, noInteger, ?_⟩))
      simp [noReal]
  · rintro (rfl | rfl | ⟨n, low, high, rfl⟩ | ⟨noTrue, noFalse, noInteger, shown⟩)
    · decide +kernel
    · decide +kernel
    · have words := lower_toString_ne n
      simp only [textOf, setting, words.1, words.2, if_false, Numeral.int64?_toString low high]
    · cases hreal : Numeral.decimal? s with
      | none => simp [textOf, setting, noTrue, noFalse, noInteger, hreal]
      | some x => simp [textOf, setting, noTrue, noFalse, noInteger, hreal, shown x hreal]

end Environment

/-! ## What is not blank stays so -/

theorem mem_dropWhile_of_not {α : Type} {p : α → Bool} {a : α} {l : List α} (h : a ∈ l)
    (hp : p a = false) : a ∈ l.dropWhile p := by
  rw [← List.takeWhile_append_dropWhile (p := p) (l := l), List.mem_append] at h
  rcases h with h | h
  · exact absurd (List.mem_takeWhile_imp h) (by simp [hp])
  · exact h

theorem trim_isEmpty_of_mem {s : String} {c : Char} (mem : c ∈ s.toList) (ink : isBlank c = false) :
    (trim s).isEmpty = false := by
  have left : c ∈ trimEnd (trimStart s.toList) := by
    unfold trimEnd trimStart
    rw [List.mem_reverse]
    exact mem_dropWhile_of_not (List.mem_reverse.2 (mem_dropWhile_of_not mem ink)) ink
  rw [String.isEmpty_eq_false_iff]
  intro empty
  have none : trimEnd (trimStart s.toList) = [] := by
    rw [← String.toList_ofList (l := trimEnd (trimStart s.toList)), ← trim, empty]
    rfl
  rw [none] at left
  cases left

theorem isBlank_digit {c : Char} (digit : Numeral.isDigit c = true) : isBlank c = false :=
  Numeral.forall_digit (P := fun c => isBlank c = false) (by decide) digit

/-- A number shows a digit or a point, or it is a word. -/
theorem Layout.exists_ink (x : Binary64) : ∃ c ∈ (plain.text x).toList, isBlank c = false := by
  cases x with
  | nan => exact ⟨'N', by decide, by decide⟩
  | infinite negative => cases negative <;> exact ⟨'i', by decide, by decide⟩
  | finite negative m e =>
    have positional (d : Decimal) : ∃ c ∈ positionalText false d, isBlank c = false := by
      obtain ⟨c, cs, hdigits, -⟩ := Numeral.toDigits_head d.digits
      have digit : Numeral.isDigit c = true :=
        Numeral.isDigit_of_mem_toDigits (n := d.digits) (hdigits ▸ List.mem_cons_self)
      simp only [positionalText, digits, hdigits, Bool.false_eq_true, if_false, List.append_nil]
      split_ifs
      · exact ⟨'0', by simp, by decide⟩
      · exact ⟨c, by simp, isBlank_digit digit⟩
      · exact ⟨'0', by simp, by decide⟩
      · exact ⟨'.', by simp, by decide⟩
    obtain ⟨c, mem, ink⟩ := positional (Decimal.shortest m e)
    refine ⟨c, ?_, ink⟩
    rw [text, String.toList_ofList]
    exact List.mem_append_right _ mem

theorem Environment.trim_textOf {s : String} (filled : (trim s).isEmpty = false) :
    (trim (textOf s)).isEmpty = false := by
  cases reads s with
  | yes word reads => simp only [textOf, reads]; decide
  | no word reads => simp only [textOf, reads]; decide
  | @integer n noWord found reads =>
    obtain ⟨c, cs, hn, hc⟩ := Numeral.toString_head n
    have ink : isBlank c = false := by
      rcases hc with rfl | digit
      · decide
      · exact isBlank_digit digit
    simp only [textOf, reads]
    exact trim_isEmpty_of_mem (hn ▸ List.mem_cons_self) ink
  | @real x noWord noInteger found reads =>
    obtain ⟨c, mem, ink⟩ := Layout.exists_ink x
    simp only [textOf, reads]
    exact trim_isEmpty_of_mem mem ink
  | text noWord noInteger noReal reads =>
    simp only [textOf, reads]
    exact filled

/-! ## Fields that are texts -/

/-- A field of the configuration that is a text. -/
inductive TextField
  | name
  | version
  | environment
  | host
  | failingKind
  | logLevel
deriving DecidableEq, Repr

namespace TextField

/-- Where the field has its place in a file. -/
def path : TextField → List String
  | name => ["app", "name"]
  | version => ["app", "version"]
  | environment => ["app", "environment"]
  | host => ["server", "rest_host"]
  | failingKind => ["jobs", "worker", "failing_job_type"]
  | logLevel => ["observability", "log_level"]

/-- The name of the variable for the field, behind the prefix and its underscore. -/
def variableName : TextField → String
  | name => "APP__NAME"
  | version => "APP__VERSION"
  | environment => "APP__ENVIRONMENT"
  | host => "SERVER__REST_HOST"
  | failingKind => "JOBS__WORKER__FAILING_JOB_TYPE"
  | logLevel => "OBSERVABILITY__LOG_LEVEL"

/-- What the name of the variable stands for. -/
def place : TextField → String
  | name => "app.name"
  | version => "app.version"
  | environment => "app.environment"
  | host => "server.rest_host"
  | failingKind => "jobs.worker.failing_job_type"
  | logLevel => "observability.log_level"

def get (c : AppConfig) : TextField → String
  | name => c.app.name
  | version => c.app.version
  | environment => c.app.environment
  | host => c.server.host
  | failingKind => c.jobs.worker.failingKind
  | logLevel => c.observability.logLevel

/-- The configuration with another text in the field. -/
def set (t : String) (c : AppConfig) : TextField → AppConfig
  | name => { c with app.name := t }
  | version => { c with app.version := t }
  | environment => { c with app.environment := t }
  | host => { c with server.host := t }
  | failingKind => { c with jobs.worker.failingKind := t }
  | logLevel => { c with observability.logLevel := t }

variable {f : TextField} {c : AppConfig} {t : String} {v : Setting}

@[simp] theorem get_set (f : TextField) (t : String) (c : AppConfig) : get (set t c f) f = t := by
  cases f <;> rfl

theorem set_injective {u : String} (h : set t c f = set u c f) : t = u := by
  rw [← get_set f t c, h, get_set]

end TextField

/-- The defaults, with a name for the environment. -/
def AppConfig.ofEnvironment (environment : String) : AppConfig := { app := { environment } }

/-! ## The tree of settings -/

namespace Setting

/-- A value that is no table is put at the end of a path only once. -/
theorem assign_assign {v : Setting} (scalar : v.isTable = false) (k : String) (ks : List String)
    (root : Setting) :
    assign (keyPath (k :: ks)) v (assign (keyPath (k :: ks)) v root) =
      assign (keyPath (k :: ks)) v root := by
  induction ks generalizing k root with
  | nil =>
    have once (root : Setting) : assign (keyPath [k]) v root = replace k v root :=
      put_of_not_table scalar
    rw [once, once, replace_replace]
  | cons k' ks ih => rw [assign_key_cons, assign_key_cons, place_replace, ih, replace_replace]

/-- A value behind some keys is written at the end of the path that they make. -/
theorem writes_nested {v : Setting} (scalar : v.isTable = false) (ks path : List String) :
    writes ks (Toml.nested path v) = [⟨keyPath (ks ++ path), v⟩] := by
  induction path generalizing ks with
  | nil =>
    rw [Toml.nested, List.append_nil]
    cases v <;> first | rfl | cases scalar
  | cons k path ih =>
    have below := ih (ks ++ [k])
    rw [List.append_assoc, List.singleton_append] at below
    simp [Toml.nested, writes, entryWrites, below]

/-- The settings when nothing but the name of the environment is known. -/
def named (environment : String) : Setting :=
  .table [("app", .table [("environment", .text environment)])]

end Setting

open Setting (assign keyPath named)

/-- A setting for a field that is a text leaves all others at their defaults. -/
theorem AppConfig.ofSetting?_assign {v : Setting} {t : String} (hv : v.text? = some t) (e : String)
    (f : TextField) :
    AppConfig.ofSetting? (assign (keyPath f.path) v (named e)) =
      some (f.set t (.ofEnvironment e)) := by
  have scalar : v.isTable = false := by cases v <;> first | rfl | cases hv
  have he : (Setting.text e).text? = some e := rfl
  have low : ∀ k ∈ ["app", "name", "version", "environment", "server", "rest_host", "jobs",
      "worker", "failing_job_type", "observability", "log_level"], lower k = k := by decide +kernel
  simp only [List.forall_mem_cons] at low
  cases f <;>
    simp [TextField.path, TextField.set, keyPath, named, ofEnvironment, assign,
      Setting.put_of_not_table scalar, Setting.replace, low, Setting.entries, Setting.setEntry,
      Setting.place, Setting.get?, AppConfig.ofSetting?, AppMetadata.ofSetting?,
      ServerConfig.ofSetting?, JobsConfig.ofSetting?, WorkerConfig.ofSetting?,
      ObservabilityConfig.ofSetting?, Setting.field, List.lookup, hv, he]

namespace Loader

variable {l : Loader} {e : String}

theorem fileLayer_nil (root : Setting) (name : String) : fileLayer [] root name = some root := by
  unfold fileLayer
  split <;> rfl

/-- The tree that comes of a single variable. -/
theorem tree_of_variable (pinned : l.environment = some e) {name place : String}
    {path : List PathStep} (hplace : Environment.place? l.namePrefix name = some place)
    (hpath : PathStep.path? place = some path) (value : String) :
    l.tree ⟨[], none, [(name, value)]⟩ =
      some (assign path (Environment.setting value) (named e)) := by
  have base : assign [.key "app", .key "environment"] (.text e) (.table []) = named e := rfl
  simp [tree, allVariables, selected, pinned, base, fileLayer_nil, Environment.layer, hplace,
    Setting.assignNamed, hpath]

theorem assignAll_nested {v : Setting} (scalar : v.isTable = false) {k : String}
    (hk : PathStep.path? k = some [.key k]) (ks : List String) (root : Setting) :
    assignAll (Toml.nested (k :: ks) v).entries root = assign (keyPath (k :: ks)) v root := by
  have single : assignAll (Toml.nested (k :: ks) v).entries root =
      Setting.assignNamed k (Toml.nested ks v) root := rfl
  have path : Setting.pathOf k = keyPath [k] := by rw [Setting.pathOf, hk]; rfl
  have keys : Setting.keys? (keyPath [k]) = some [k] := rfl
  rw [single, Setting.assignNamed_eq_runAll, Setting.namedWrites, path, keys]
  show Setting.runAll (Setting.writes [k] (Toml.nested ks v)) root = _
  rw [Setting.writes_nested scalar]
  rfl

/-- Nothing but `local.toml` is there to be looked at. -/
theorem fileLayer_local {file : String} {settings : Setting} (read : Toml.read? file = some settings)
    (root : Setting) (name : String) :
    fileLayer [("local.toml", file)] root name =
      some (if name = "local" then assignAll settings.entries root else root) := by
  have same : name ++ ".toml" = "local.toml" ↔ name = "local" := by
    constructor
    · intro h
      have h := congrArg String.toList h
      have split : "local.toml".toList = "local".toList ++ ".toml".toList := by decide
      rw [String.toList_append, split, List.append_cancel_right_eq] at h
      exact String.toList_inj.1 h
    · rintro rfl
      rfl
  unfold fileLayer
  by_cases here : name = "local"
  · subst here
    have : ("local" ++ ".toml" : String) = "local.toml" := rfl
    simp [this, read]
  · have other : (name ++ ".toml" == "local.toml") = false := by simp [same, here]
    by_cases empty : name.isEmpty
    · simp [empty, here]
    · simp [empty, here, List.lookup, other]

/-- The tree that comes of a single key in `local.toml`. The file is read twice if the environment
has the same name. -/
theorem tree_of_local (pinned : l.environment = some e) {file k : String} {ks : List String}
    {v : Setting} (scalar : v.isTable = false) (hk : PathStep.path? k = some [.key k])
    (read : Toml.read? file = some (Toml.nested (k :: ks) v)) :
    l.tree ⟨[("local.toml", file)], none, []⟩ = some (assign (keyPath (k :: ks)) v (named e)) := by
  have base : assign [.key "app", .key "environment"] (.text e) (.table []) = named e := rfl
  have twice := Setting.assign_assign scalar k ks (named e)
  by_cases here : e = "local"
  · subst here
    simp [tree, allVariables, selected, pinned, base, fileLayer_local read,
      assignAll_nested scalar hk, Environment.layer, twice]
  · simp [tree, allVariables, selected, pinned, base, fileLayer_local read, here,
      assignAll_nested scalar hk, Environment.layer]

/-! ## Loading -/

/-- What the name of a variable for the field stands for. -/
theorem place?_variableName (namePrefix : String) (f : TextField) :
    Environment.place? namePrefix (namePrefix ++ "_" ++ f.variableName) = some f.place := by
  have split : lower (namePrefix ++ "_" ++ f.variableName) =
      lower (namePrefix ++ "_") ++ lower f.variableName := by
    simp [lower, List.flatMap_append, String.ofList_append, String.append_assoc]
  have behind (cs ds : List Char) : Environment.dropFront? cs (cs ++ ds) = some ds := by
    induction cs with
    | nil => rfl
    | cons c cs ih => simp [Environment.dropFront?, ih]
  rw [Environment.place?, split, String.toList_append, behind, Option.map_some]
  cases f <;> decide +kernel

theorem validate_set {t : String} {f : TextField}
    (filled : f = .logLevel → (trim t).isEmpty = false) :
    validate (f.set t (.ofEnvironment e)) = .ok () := by
  have jobs : (f.set t (.ofEnvironment e)).jobs.validate = .ok () := by cases f <;> rfl
  have level : (trim (f.set t (.ofEnvironment e)).observability.logLevel).isEmpty = false := by
    by_cases here : f = .logLevel
    · subst here
      exact filled rfl
    · have default : (f.set t (.ofEnvironment e)).observability.logLevel = "info" := by
        cases f <;> first | rfl | exact absurd rfl here
      rw [default]
      decide
  simp [validate, jobs, level]

/-- A tree with a single setting, for a field that is a text, gives a configuration. -/
theorem load_of_tree {s : Sources} {f : TextField} {v : Setting} {t : String}
    (tree : l.tree s = some (assign (keyPath f.path) v (named e))) (hv : v.text? = some t)
    (filled : f = .logLevel → (trim t).isEmpty = false) :
    l.load s = .ok (f.set t (.ofEnvironment e)) := by
  simp [load, tree, AppConfig.ofSetting?_assign hv, validate_set filled, Except.map]

/-- **What a text becomes.** For every field that is a text, every text (one that is not blank for
the log level), every prefix and every pinned environment:

  * the variable for the field, alone, gives the defaults with `textOf s` in the field;
  * `local.toml`, alone, gives the defaults with `s` in the field, if that is what it says, and there
    is such a file for each `s`;
  * the two are the same configuration exactly for the texts that are `Faithful`. -/
theorem text_overrides (pinned : l.environment = some e) (f : TextField) {s : String}
    (filled : f = .logLevel → (trim s).isEmpty = false) :
    (∀ name, Environment.place? l.namePrefix name = some f.place →
      l.load ⟨[], none, [(name, s)]⟩ = .ok (f.set (Environment.textOf s) (.ofEnvironment e))) ∧
    (∀ file, Toml.read? file = some (Toml.nested f.path (.text s)) →
      l.load ⟨[("local.toml", file)], none, []⟩ = .ok (f.set s (.ofEnvironment e))) ∧
    (∀ name file, Environment.place? l.namePrefix name = some f.place →
      Toml.read? file = some (Toml.nested f.path (.text s)) →
      (l.load ⟨[], none, [(name, s)]⟩ = l.load ⟨[("local.toml", file)], none, []⟩ ↔
        Environment.Faithful s)) ∧
    Environment.place? l.namePrefix (l.namePrefix ++ "_" ++ f.variableName) = some f.place ∧
    Toml.read? (Toml.document f.path s) = some (Toml.nested f.path (.text s)) := by
  have place : PathStep.path? f.place = some (keyPath f.path) := by cases f <;> decide +kernel
  have fromVariable (name) (hname : Environment.place? l.namePrefix name = some f.place) :
      l.load ⟨[], none, [(name, s)]⟩ = .ok (f.set (Environment.textOf s) (.ofEnvironment e)) :=
    load_of_tree (tree_of_variable pinned hname place s) (Environment.text?_setting s) fun level =>
      Environment.trim_textOf (filled level)
  have fromFile (file) (read : Toml.read? file = some (Toml.nested f.path (.text s))) :
      l.load ⟨[("local.toml", file)], none, []⟩ = .ok (f.set s (.ofEnvironment e)) := by
    obtain ⟨k, ks, hpath, hk⟩ : ∃ k ks, f.path = k :: ks ∧ PathStep.path? k = some [.key k] := by
      cases f <;> exact ⟨_, _, rfl, by decide +kernel⟩
    rw [hpath] at read
    exact load_of_tree (hpath ▸ tree_of_local pinned rfl hk read) rfl filled
  refine ⟨fromVariable, fromFile, fun name file hname read => ?_, place?_variableName _ f, ?_⟩
  · rw [fromVariable name hname, fromFile file read, ← Environment.textOf_eq_iff]
    constructor
    · intro same
      exact TextField.set_injective (Except.ok.inj same)
    · intro same
      rw [same]
  · refine Toml.read?_document ?_ ?_ ?_ s <;> cases f <;> decide +kernel

/-- A version with a zero at its end loses it on the way through a variable, and is another one
then. -/
theorem version_override_is_cut :
    ({ environment := some "test" } : Loader).load ⟨[], none, [("CONVEYOR_APP__VERSION", "1.10")]⟩ =
      .ok { app := { environment := "test", version := "1.1" } } ∧
    ({ environment := some "test" } : Loader).load
        ⟨[("local.toml", "[app]\nversion = \"1.10\"\n")], none, []⟩ =
      .ok { app := { environment := "test", version := "1.10" } } ∧
    ({ app := { environment := "test", version := "1.1" } } : AppConfig) ≠
      { app := { environment := "test", version := "1.10" } } := by
  decide +kernel

/-- A log level comes through, and an application called by a number with a sign does not. -/
theorem overrides_of_directives_and_number :
    let l : Loader := { environment := some "local", namePrefix := "SHOP" }
    l.load ⟨[], none, [("shop_observability__log_level", "info,conveyor_jobs=debug")]⟩ =
      .ok (TextField.logLevel.set "info,conveyor_jobs=debug" (.ofEnvironment "local")) ∧
    l.load ⟨[("local.toml", Toml.document ["app", "name"] "+7")], none, []⟩ =
      .ok (TextField.name.set "+7" (.ofEnvironment "local")) ∧
    l.load ⟨[], none, [("SHOP_APP__NAME", "+7")]⟩ ≠
      l.load ⟨[("local.toml", Toml.document ["app", "name"] "+7")], none, []⟩ := by
  intro l
  have pinned : l.environment = some "local" := rfl
  obtain ⟨level, -⟩ := text_overrides pinned .logLevel (s := "info,conveyor_jobs=debug")
    fun _ => by decide +kernel
  obtain ⟨-, file, same, hname, read⟩ := text_overrides pinned .name (s := "+7") nofun
  have kept : Environment.textOf "info,conveyor_jobs=debug" = "info,conveyor_jobs=debug" := by
    decide +kernel
  have cut : ¬ Environment.Faithful "+7" := by
    rw [← Environment.textOf_eq_iff]
    decide +kernel
  refine ⟨?_, file _ read, fun h => cut ((same _ _ hname read).1 h)⟩
  rw [level _ (by decide +kernel), kept]

end Loader
end JobPipeline
