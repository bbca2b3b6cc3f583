import JobPipeline.Config.Coercion
import JobPipeline.Config.DotEnv
import JobPipeline.Config.Error
import JobPipeline.Toml.Reader

/-!
# Loading the configuration

The configuration comes in layers, each on top of the one before: the name of the selected
environment, the files `default.toml`, `<environment>.toml` and `local.toml` as far as they exist,
and the variables of the environment, to which a `.env` file may add. Only the outcome has to have
the right types, and it is validated at last.

`Loader.load` says what comes of given sources.
-/

namespace JobPipeline

/-- How to load a configuration. -/
structure Loader where
  /-- The selected environment, if it is not left to a variable. -/
  environment : Option String := none
  /-- What the names of variables start with. -/
  namePrefix : String := "CONVEYOR"

/-- What a configuration is loaded from. -/
structure Sources where
  /-- The files of the configuration directory, by name. -/
  files : List (String × String)
  /-- The `.env` file. -/
  dotEnv : Option String
  /-- The variables of the process. -/
  env : Environment

namespace Loader

def directory : String := "./config"

def defaultEnvironment : String := "development"

/-- The variables, with those that the `.env` file adds. -/
def allVariables (s : Sources) : Environment :=
  match s.dotEnv with
  | some text => DotEnv.load s.env text
  | none => s.env

def selected (l : Loader) (env : Environment) : String :=
  l.environment.getD ((env.lookup (l.namePrefix ++ "_ENVIRONMENT")).getD defaultEnvironment)

/-- The tree with the settings of a table on top, its keys taken as places. -/
def assignAll (settings : List (String × Setting)) (root : Setting) : Setting :=
  settings.foldl (fun root (name, value) => Setting.assignNamed name value root) root

/-- The tree with the settings of a file on top. A file without a name in front of its ending is not
looked at. -/
def fileLayer (files : List (String × String)) (root : Setting) (name : String) : Option Setting :=
  if name.isEmpty then some root
  else match files.lookup (name ++ ".toml") with
    | none => some root
    | some text => (Toml.read? text).map fun settings => assignAll settings.entries root

/-- The tree of all settings. -/
def tree (l : Loader) (s : Sources) : Option Setting := do
  let env := allVariables s
  let name := l.selected env
  let root := Setting.assign [.key "app", .key "environment"] (.text name) (.table [])
  let root ← ["default", name, "local"].foldlM (fileLayer s.files) root
  return Environment.layer l.namePrefix env root

def validate (c : AppConfig) : Except ConfigError Unit :=
  match c.jobs.validate with
  | .error e => .error (.ofJobError e)
  | .ok () =>
    if (trim c.observability.logLevel).isEmpty then
      .error (.invalid "observability.log_level must not be empty")
    else .ok ()

/-- Loads and validates a configuration. -/
def load (l : Loader) (s : Sources) : Except ConfigError AppConfig :=
  match (l.tree s).bind AppConfig.ofSetting? with
  | none => .error .load
  | some config => (validate config).map fun () => config

end Loader
end JobPipeline
