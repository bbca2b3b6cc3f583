import JobPipeline.Config.Loader
import JobPipeline.Proofs.Config.Leaves
import JobPipeline.Proofs.Config.Variables

/-!
# Which source of the configuration counts

A configuration has six sources. In the order in which they count: the variables of the process,
those of the `.env` file, `local.toml`, the file of the selected environment, `default.toml`, and
the name of that environment (`Loader.layers`). The loader writes them one after the other, the last
one first. A leaf comes out as what the first source says that says something, and else as its
default (`sources_take_precedence`).

That is so for a leaf that no source does harm to, by a value on the way to it or behind it. And no
two variables may be for the same place: their order would count then, which it does not otherwise.
-/

namespace JobPipeline
namespace Loader

open Setting (Write Leaf Way Spare at? lastAt leadsTo outcome runAll runAll_append namedWrites)

variable {l : Loader} {s : Sources} {files : List (String × String)} {name : String}
  {root root' : Setting} {p : List String}

/-! ## What the sources write -/

/-- What the `.env` file says. -/
def ownVariables (s : Sources) : Environment := (s.dotEnv.map (DotEnv.stated s.env)).getD []

/-- The environment is the one that is pinned, else the one that a variable of the process or of the
`.env` file names, else the default. -/
def chosen (l : Loader) (s : Sources) : String :=
  let name := l.namePrefix ++ "_ENVIRONMENT"
  (l.environment.or <| (s.env.lookup name).or <| (ownVariables s).lookup name).getD
    defaultEnvironment

/-- The name of the selected environment is a setting of the application. -/
def nameWrites (l : Loader) (s : Sources) : List Write :=
  [⟨[.key "app", .key "environment"], .text (l.chosen s)⟩]

/-- What a file writes. A file that is not there, or cannot be read, writes nothing. -/
def fileWrites (files : List (String × String)) (name : String) : List Write :=
  match (files.lookup (name ++ ".toml")).bind Toml.read? with
  | some settings => settings.entries.flatMap fun e => namedWrites e.1 e.2
  | none => []

/-- What is written under the variables, from the bottom up. -/
def filed (l : Loader) (s : Sources) : List Write :=
  l.nameWrites s ++ fileWrites s.files "default" ++ fileWrites s.files (l.chosen s) ++
    fileWrites s.files "local"

/-- The sources, the one that counts first in front. -/
def layers (l : Loader) (s : Sources) : List (List Write) := [
  Environment.writes l.namePrefix s.env,
  Environment.writes l.namePrefix (ownVariables s),
  fileWrites s.files "local",
  fileWrites s.files (l.chosen s),
  fileWrites s.files "default",
  l.nameWrites s]

/-- What the first source that has a setting for a place has there. -/
def setting? (l : Loader) (s : Sources) (p : List String) : Option Setting :=
  (l.layers s).findSome? (lastAt p)

/-- No source does harm to a place: none puts a value that is no table on the way to it, or anything
behind it. -/
def Clear (l : Loader) (s : Sources) (p : List String) : Prop :=
  ∀ layer ∈ l.layers s, ∀ w ∈ layer, Setting.Clear p w.path w.value

/-- No two variables, of the process or of the `.env` file, get in each other's way. -/
def Apart (l : Loader) (s : Sources) : Prop :=
  Environment.Apart l.namePrefix (s.env ++ ownVariables s)

instance (l : Loader) (s : Sources) (p : List String) : Decidable (l.Clear s p) :=
  inferInstanceAs (Decidable (∀ layer ∈ l.layers s, ∀ w ∈ layer, Setting.Clear p w.path w.value))

instance (l : Loader) (s : Sources) : Decidable (l.Apart s) :=
  inferInstanceAs (Decidable (Environment.Apart l.namePrefix (s.env ++ ownVariables s)))

theorem allVariables_eq (s : Sources) :
    allVariables s = s.env ++ DotEnv.beyond s.env (ownVariables s) := by
  rw [allVariables, ownVariables]
  cases s.dotEnv with
  | none => exact (List.append_nil _).symm
  | some text => exact DotEnv.load_eq s.env text

theorem selected_eq (l : Loader) (s : Sources) : l.selected (allVariables s) = l.chosen s := by
  rw [selected, chosen, allVariables_eq, DotEnv.lookup_beyond]
  cases l.environment <;> rfl

theorem fileLayer_eq (named : name ≠ "") (h : fileLayer files root name = some root') :
    root' = runAll (fileWrites files name) root := by
  have written (settings : List (String × Setting)) (root : Setting) :
      assignAll settings root = runAll (settings.flatMap fun e => namedWrites e.1 e.2) root := by
    induction settings generalizing root with
    | nil => rfl
    | cons e settings ih =>
      obtain ⟨name, value⟩ := e
      have first : assignAll ((name, value) :: settings) root =
          assignAll settings (Setting.assignNamed name value root) := rfl
      rw [first, ih, Setting.assignNamed_eq_runAll, List.flatMap_cons, runAll_append]
  rw [fileLayer, if_neg (by simpa using named)] at h
  rw [fileWrites]
  cases hfile : files.lookup (name ++ ".toml") with
  | none =>
    rw [hfile] at h
    exact (Option.some.inj h).symm
  | some text =>
    rw [hfile] at h
    obtain ⟨settings, hread, rfl⟩ := Option.map_eq_some_iff.1 h
    rw [Option.bind_some, hread, written]

/-- The tree of the settings in files. -/
def filedTree (l : Loader) (s : Sources) : Option Setting :=
  ["default", l.chosen s, "local"].foldlM (fileLayer s.files)
    (.assign [.key "app", .key "environment"] (.text (l.chosen s)) (.table []))

theorem tree_eq (l : Loader) (s : Sources) :
    l.tree s = (l.filedTree s).map (Environment.layer l.namePrefix (allVariables s)) := by
  rw [tree, selected_eq, filedTree]
  cases List.foldlM (fileLayer s.files) _ _ <;> rfl

theorem filedTree_eq (named : l.chosen s ≠ "") (h : l.filedTree s = some root) :
    root = runAll (l.filed s) (.table []) := by
  simp only [filedTree, List.foldlM_cons, List.foldlM_nil, Option.bind_eq_bind,
    Option.bind_eq_some_iff, Option.pure_def, Option.some.injEq] at h
  obtain ⟨first, hfirst, second, hsecond, third, hthird, rfl⟩ := h
  rw [fileLayer_eq (by decide) hthird, fileLayer_eq named hsecond, fileLayer_eq (by decide) hfirst,
    filed, runAll_append, runAll_append]
  rfl

/-- All that is written, in order. -/
def written (l : Loader) (s : Sources) : List Write :=
  l.filed s ++ Environment.writes l.namePrefix (allVariables s)

theorem tree_eq_runAll (named : l.chosen s ≠ "") (h : l.tree s = some root) :
    root = runAll (l.written s) (.table []) := by
  rw [tree_eq] at h
  obtain ⟨files, hfiles, rfl⟩ := Option.map_eq_some_iff.1 h
  rw [filedTree_eq named hfiles, Environment.layer_eq_runAll, written, runAll_append]

/-! ## One place -/

theorem lastAt_written (apart : l.Apart s) : lastAt p (l.written s) = l.setting? s p := by
  have first (ws : List Write) (rest : List (List Write)) :
      (ws :: rest).findSome? (lastAt p) = (lastAt p ws).or (rest.findSome? (lastAt p)) := by
    rw [List.findSome?_cons]
    cases lastAt p ws <;> rfl
  rw [written, Setting.lastAt_append, allVariables_eq, Environment.lastAt_beyond apart]
  simp only [filed, Setting.lastAt_append, setting?, layers, first, List.findSome?_nil,
    Option.or_none, Option.or_assoc]

theorem mem_layers_of_mem_written {w : Write} (h : w ∈ l.written s) :
    ∃ layer ∈ l.layers s, w ∈ layer := by
  have fromVariables : w ∈ Environment.writes l.namePrefix (allVariables s) →
      w ∈ Environment.writes l.namePrefix s.env ∨
        w ∈ Environment.writes l.namePrefix (ownVariables s) := by
    rw [allVariables_eq, Environment.writes, List.filterMap_append, List.mem_append]
    exact Or.imp_right fun h => (List.Sublist.filterMap _ List.filter_sublist).subset h
  simp only [written, filed, List.mem_append] at h
  simp only [layers, List.mem_cons, List.not_mem_nil, exists_eq_or_imp]
  tauto

theorem path_ne_nil_of_mem_layers {layer : List Write} {w : Write} (hlayer : layer ∈ l.layers s)
    (hw : w ∈ layer) : w.path ≠ [] := by
  have fromVariables {env : Environment} (h : w ∈ Environment.writes l.namePrefix env) :
      w.path ≠ [] := by
    obtain ⟨v, -, h⟩ := List.mem_filterMap.1 h
    obtain ⟨place, -, rfl⟩ := Option.map_eq_some_iff.1 h
    exact Setting.pathOf_ne_nil place
  have fromFile {name : String} (h : w ∈ fileWrites s.files name) : w.path ≠ [] := by
    rw [fileWrites] at h
    split at h
    · obtain ⟨e, -, h⟩ := List.mem_flatMap.1 h
      exact Setting.path_ne_nil_of_mem_namedWrites h
    · cases h
  simp only [layers, List.mem_cons, List.not_mem_nil, or_false] at hlayer
  rcases hlayer with rfl | rfl | rfl | rfl | rfl | rfl
  · exact fromVariables hw
  · exact fromVariables hw
  · exact fromFile hw
  · exact fromFile hw
  · exact fromFile hw
  · rw [List.mem_singleton.1 hw]
    exact List.cons_ne_nil _ _

/-- What stands at a place that no source does harm to. -/
theorem at?_of_tree (named : l.chosen s ≠ "") (nonempty : p ≠ []) (clear : l.Clear s p)
    (h : l.tree s = some root) : Way p root ∧ at? p root = outcome p (l.written s) := by
  rw [tree_eq_runAll named h]
  refine Setting.at?_runAll nonempty fun w hw => ?_
  obtain ⟨layer, hlayer, hw⟩ := mem_layers_of_mem_written hw
  exact ⟨path_ne_nil_of_mem_layers hlayer hw, clear layer hlayer w hw⟩

theorem tree_of_load {c : AppConfig} (h : l.load s = .ok c) :
    ∃ root, l.tree s = some root ∧ AppConfig.ofSetting? root = some c := by
  rw [load] at h
  cases hbind : (l.tree s).bind AppConfig.ofSetting? with
  | none => rw [hbind] at h; cases h
  | some config =>
    rw [hbind] at h
    obtain ⟨root, htree, hread⟩ := Option.bind_eq_some_iff.1 hbind
    refine ⟨root, htree, ?_⟩
    cases hvalid : validate config with
    | error e => simp only [hvalid] at h; cases h
    | ok _ => simp only [hvalid] at h; cases h; exact hread

/-- A leaf is read from the first source that has it, and if none has, it is left at its default. -/
theorem leaf_of_load {c : AppConfig} (loaded : l.load s = .ok c) (named : l.chosen s ≠ "")
    (apart : l.Apart s) {leaf : Leaf AppConfig} (hleaf : leaf ∈ AppConfig.leaves)
    (clear : l.Clear s leaf.path) : leaf.TakenFrom {} c (l.setting? s leaf.path) := by
  obtain ⟨root, htree, hread⟩ := tree_of_load loaded
  obtain ⟨way, stands⟩ := at?_of_tree named leaf.nonempty clear htree
  have holds := AppConfig.readBy.sound hread leaf hleaf way
  rw [Leaf.Holds, stands, outcome, lastAt_written apart] at holds
  cases hsetting : l.setting? s leaf.path with
  | some v => rwa [hsetting] at holds
  | none =>
    rw [hsetting, Option.none_or] at holds
    split at holds
    · -- an empty table is all there is, and nobody reads the leaf from that
      obtain ⟨read⟩ := holds
      rw [leaf.refuses] at read
      cases read
    · exact holds

/-! ## The order of the variables -/

section
variable {env : Environment}

theorem ownVariables_perm (distinct : s.env.Distinct) (perm : s.env.Perm env) :
    ownVariables { s with env } = ownVariables s := by
  rw [ownVariables, ownVariables]
  cases s.dotEnv with
  | none => rfl
  | some text => exact (DotEnv.stated_congr (distinct.alike perm) text).symm

theorem chosen_perm (distinct : s.env.Distinct) (perm : s.env.Perm env) :
    l.chosen { s with env } = l.chosen s := by
  rw [chosen, chosen, ownVariables_perm distinct perm, distinct.alike perm]

theorem filed_perm (distinct : s.env.Distinct) (perm : s.env.Perm env) :
    l.filed { s with env } = l.filed s := by
  rw [filed, filed, nameWrites, nameWrites, chosen_perm distinct perm]

theorem filedTree_perm (distinct : s.env.Distinct) (perm : s.env.Perm env) :
    l.filedTree { s with env } = l.filedTree s := by
  rw [filedTree, filedTree, chosen_perm distinct perm]

theorem setting?_perm (distinct : s.env.Distinct) (apart : l.Apart s) (perm : s.env.Perm env) :
    l.setting? { s with env } p = l.setting? s p := by
  have process : Environment.Apart l.namePrefix s.env := fun u hu v hv =>
    apart u (List.mem_append_left _ hu) v (List.mem_append_left _ hv)
  simp only [setting?, layers, nameWrites, ownVariables_perm distinct perm,
    chosen_perm distinct perm, List.findSome?_cons, Environment.lastAt_perm distinct process perm]

theorem apart_perm (distinct : s.env.Distinct) (perm : s.env.Perm env) (apart : l.Apart s) :
    l.Apart { s with env } := by
  rw [Apart, ownVariables_perm distinct perm]
  have back := (perm.append_right (ownVariables s)).symm.subset
  exact fun u hu v hv => apart u (back hu) v (back hv)

theorem clear_perm (distinct : s.env.Distinct) (perm : s.env.Perm env) (clear : l.Clear s p) :
    l.Clear { s with env } p := by
  simp only [Clear, layers, nameWrites, ownVariables_perm distinct perm, chosen_perm distinct perm,
    List.forall_mem_cons] at clear ⊢
  exact ⟨fun w hw => clear.1 w ((perm.filterMap _).symm.subset hw), clear.2⟩

theorem written_perm (distinct : s.env.Distinct) (perm : s.env.Perm env) :
    (l.written s).Perm (l.written { s with env }) := by
  have same : DotEnv.beyond env (ownVariables s) = DotEnv.beyond s.env (ownVariables s) :=
    List.filter_congr fun v _ => by rw [distinct.alike perm v.1]
  rw [written, written, filed_perm distinct perm, allVariables_eq, allVariables_eq,
    ownVariables_perm distinct perm, same]
  exact ((perm.append_right _).filterMap _).append_left _

/-- Where no source does harm to any leaf, the order of the variables does not matter. -/
theorem load_perm (named : l.chosen s ≠ "") (apart : l.Apart s)
    (clear : ∀ leaf ∈ AppConfig.leaves, l.Clear s leaf.path) (distinct : s.env.Distinct)
    (perm : s.env.Perm env) : l.load { s with env } = l.load s := by
  have read : (l.tree { s with env }).bind AppConfig.ofSetting? =
      (l.tree s).bind AppConfig.ofSetting? := by
    cases hfiles : l.filedTree s with
    | none => rw [tree_eq, tree_eq, filedTree_perm distinct perm, hfiles]; rfl
    | some files =>
      obtain ⟨root, htree⟩ : ∃ root, l.tree s = some root := ⟨_, by rw [tree_eq, hfiles]; rfl⟩
      obtain ⟨root', htree'⟩ : ∃ root, l.tree { s with env } = some root :=
        ⟨_, by rw [tree_eq, filedTree_perm distinct perm, hfiles]; rfl⟩
      have named' : l.chosen { s with env } ≠ "" := chosen_perm distinct perm ▸ named
      have stands (leaf) (hleaf : leaf ∈ AppConfig.leaves) :=
        at?_of_tree named leaf.nonempty (clear leaf hleaf) htree
      have stands' (leaf) (hleaf : leaf ∈ AppConfig.leaves) :=
        at?_of_tree named' leaf.nonempty (clear_perm distinct perm (clear leaf hleaf)) htree'
      rw [htree, htree', Option.bind_some, Option.bind_some]
      refine AppConfig.readBy.congr
        (fun leaf hleaf => ⟨(stands' leaf hleaf).1, (stands leaf hleaf).1⟩) fun leaf hleaf => ?_
      rw [(stands leaf hleaf).2, (stands' leaf hleaf).2, outcome, outcome, lastAt_written apart,
        lastAt_written (apart_perm distinct perm apart), setting?_perm distinct apart perm,
        (written_perm distinct perm).any_eq]
  rw [load, load, read]

end

/-! ## The order of the sources -/

/-- **A setting comes from the first source that has it**: the variables of the process, those of
the `.env` file, `local.toml`, the file of the selected environment, `default.toml`, and for the
name of the environment the name itself. If no source has it, it is left at its default. The
environment is the one that is pinned, or else one that a variable names, the process before the
file, or else `development`.

The variables of the process may be given in any order: the setting is the same, and so is the whole
outcome, be it a configuration or an error, where no source does harm to any leaf. -/
theorem sources_take_precedence {c : AppConfig} (loaded : l.load s = .ok c)
    (named : l.chosen s ≠ "") (apart : l.Apart s) {leaf : Leaf AppConfig}
    (hleaf : leaf ∈ AppConfig.leaves) (clear : l.Clear s leaf.path) :
    leaf.TakenFrom {} c (l.setting? s leaf.path) ∧
    l.selected (allVariables s) = l.chosen s ∧
    ∀ env, s.env.Distinct → s.env.Perm env →
      (∀ c', l.load { s with env } = .ok c' → leaf.get c' = leaf.get c) ∧
      ((∀ leaf ∈ AppConfig.leaves, l.Clear s leaf.path) → l.load { s with env } = l.load s) := by
  have here := leaf_of_load loaded named apart hleaf clear
  refine ⟨here, selected_eq l s, fun env distinct perm => ⟨fun c' loaded' => ?_, fun all =>
    load_perm named apart all distinct perm⟩⟩
  have there := leaf_of_load loaded' (chosen_perm distinct perm ▸ named)
    (apart_perm distinct perm apart) hleaf (clear_perm distinct perm clear)
  rw [setting?_perm distinct apart perm] at there
  generalize l.setting? s leaf.path = v? at here there
  cases here with
  | set read =>
    cases there with
    | set read' => exact Option.some.inj (read'.symm.trans read)
  | unset default =>
    cases there with
    | unset default' => exact default'.trans default.symm

/-- The `.env` file selects an environment. Its file sets the port, and so does `default.toml`. The
capacity of the queue is set by the process and by the `.env` file. -/
def staged : Sources where
  files := [("default.toml", "[server]\nrest_port = 3000\n"),
    ("staging.toml", "[server]\nrest_port = 3001\n")]
  dotEnv := some "CONVEYOR_ENVIRONMENT=staging\nCONVEYOR_JOBS__QUEUE__CAPACITY=30\n"
  env := [("CONVEYOR_JOBS__QUEUE__CAPACITY", "20"), ("CONVEYOR_JOBS__WORKER__CONCURRENCY", "2")]

def stagedConfig : AppConfig where
  app := { environment := "staging" }
  server := { port := 3001 }
  jobs := { queue := { capacity := 20 }, worker := { concurrency := 2 } }

def portLeaf : Leaf AppConfig :=
  .under "server" AppConfig.server
    (.ofField "rest_port" Setting.word16? ServerConfig.port Setting.word16?_empty)

theorem load_staged : ({} : Loader).load staged = .ok stagedConfig := by decide +kernel

theorem apart_staged : ({} : Loader).Apart staged := by decide +kernel

theorem clear_staged : ∀ leaf ∈ AppConfig.leaves, ({} : Loader).Clear staged leaf.path := by
  decide +kernel

/-- The file of the selected environment is asked for the port before `default.toml`. With the
variables of the process the other way round the outcome is the same. -/
theorem staging_file_sets_port :
    ({} : Loader).load staged = .ok stagedConfig ∧ ({} : Loader).chosen staged = "staging" ∧
    ({} : Loader).Apart staged ∧ portLeaf ∈ AppConfig.leaves ∧
    ({} : Loader).Clear staged portLeaf.path ∧
    (({} : Loader).setting? staged portLeaf.path).bind Setting.word16? = some 3001 ∧
    portLeaf.TakenFrom {} stagedConfig (({} : Loader).setting? staged portLeaf.path) ∧
    ({} : Loader).selected (allVariables staged) = "staging" ∧
    staged.env.Distinct ∧ (∀ leaf ∈ AppConfig.leaves, ({} : Loader).Clear staged leaf.path) ∧
    ({} : Loader).load { staged with env := staged.env.reverse } = .ok stagedConfig := by
  have chosen : ({} : Loader).chosen staged = "staging" := by decide +kernel
  have distinct : staged.env.Distinct := by
    rw [Environment.Distinct]
    decide
  have port : portLeaf ∈ AppConfig.leaves := List.mem_append_right _ <| List.mem_append_left _ <|
    List.mem_map_of_mem <| List.mem_cons_of_mem _ List.mem_cons_self
  have clear := clear_staged _ port
  obtain ⟨leaf, selected, anyOrder⟩ :=
    sources_take_precedence load_staged (by rw [chosen]; decide) apart_staged port clear
  obtain ⟨-, same⟩ := anyOrder _ distinct staged.env.reverse_perm.symm
  exact ⟨load_staged, chosen, apart_staged, port, clear, by decide +kernel, leaf,
    selected.trans chosen, distinct, clear_staged, (same clear_staged).trans load_staged⟩

end Loader
end JobPipeline
