import JobPipeline.Config.Jobs

/-!
# Configuration of the application

The root configuration: what the application is called, how its HTTP server listens, the job system,
and what is logged. A field of a section that is named here and is missing is at the value that it
has in the `default` of its section. `AppConfig.codec` is the JSON form.
-/

namespace JobPipeline

def packageVersion : String := "0.1.0"

structure AppMetadata where
  name : String := "conveyor"
  version : String := packageVersion
  environment : String := "development"
deriving DecidableEq, Repr

instance : Inhabited AppMetadata := ⟨{}⟩

@[simp] theorem AppMetadata.default_eq : (default : AppMetadata) = {} := rfl

structure ServerConfig where
  host : String := "0.0.0.0"
  port : UInt16 := 8080
  /-- The greatest request body, in bytes. -/
  maxBodySize : UInt64 := 1048576
  corsEnabled : Bool := true
  /-- The origins that browsers may call from; a star stands for all. -/
  corsOrigins : List String := ["*"]
deriving DecidableEq, Repr

instance : Inhabited ServerConfig := ⟨{}⟩

@[simp] theorem ServerConfig.default_eq : (default : ServerConfig) = {} := rfl

/-- The address the server listens on. -/
def ServerConfig.address (c : ServerConfig) : String := c.host ++ ":" ++ toString c.port.toNat

/-- How log lines are written. -/
inductive LogFormat
  /-- For people. -/
  | pretty
  /-- One JSON object a line. -/
  | json
deriving DecidableEq, Repr

namespace LogFormat

def all : List LogFormat := [.pretty, .json]

def name : LogFormat → String
  | .pretty => "pretty"
  | .json => "json"

end LogFormat

/-- Configuration of logging. -/
structure ObservabilityConfig where
  /-- The filter directives. -/
  logLevel : String := "info"
  logFormat : LogFormat := .pretty
deriving DecidableEq, Repr

instance : Inhabited ObservabilityConfig := ⟨{}⟩

@[simp] theorem ObservabilityConfig.default_eq : (default : ObservabilityConfig) = {} := rfl

structure AppConfig where
  app : AppMetadata := {}
  server : ServerConfig := {}
  jobs : JobsConfig := {}
  observability : ObservabilityConfig := {}
deriving DecidableEq, Repr

instance : Inhabited AppConfig := ⟨{}⟩

@[simp] theorem AppConfig.default_eq : (default : AppConfig) = {} := rfl

open Json (Codec)

def AppMetadata.codec : Codec AppMetadata :=
  let d : AppMetadata := default
  .record
    (.cons (.withDefault "name" .text d.name) <|
      .cons (.withDefault "version" .text d.version) <|
      .cons (.withDefault "environment" .text d.environment) .nil)
    (fun (name, version, environment, ()) => { name, version, environment })
    (fun c => (c.name, c.version, c.environment, ()))

def ServerConfig.codec : Codec ServerConfig :=
  let d : ServerConfig := default
  .record
    (.cons (.withDefault "rest_host" .text d.host) <|
      .cons (.withDefault "rest_port" .word16 d.port) <|
      .cons (.withDefault "max_body_size" .word64 d.maxBodySize) <|
      .cons (.withDefault "cors_enabled" .bool d.corsEnabled) <|
      .cons (.withDefault "cors_origins" (.list .text) d.corsOrigins) .nil)
    (fun (host, port, maxBodySize, corsEnabled, corsOrigins, ()) =>
      { host, port, maxBodySize, corsEnabled, corsOrigins })
    (fun c => (c.host, c.port, c.maxBodySize, c.corsEnabled, c.corsOrigins, ()))

def LogFormat.codec : Codec LogFormat := .names LogFormat.all LogFormat.name

def ObservabilityConfig.codec : Codec ObservabilityConfig :=
  let d : ObservabilityConfig := default
  .record
    (.cons (.withDefault "log_level" .text d.logLevel) <|
      .cons (.withDefault "log_format" LogFormat.codec d.logFormat) .nil)
    (fun (logLevel, logFormat, ()) => { logLevel, logFormat })
    (fun c => (c.logLevel, c.logFormat, ()))

def AppConfig.codec : Codec AppConfig :=
  .record
    (.cons (.withDefault "app" AppMetadata.codec default) <|
      .cons (.withDefault "server" ServerConfig.codec default) <|
      .cons (.withDefault "jobs" JobsConfig.codec default) <|
      .cons (.withDefault "observability" ObservabilityConfig.codec default) .nil)
    (fun (app, server, jobs, observability, ()) => { app, server, jobs, observability })
    (fun c => (c.app, c.server, c.jobs, c.observability, ()))

end JobPipeline
