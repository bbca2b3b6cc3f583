import JobPipeline.Config.App
import JobPipeline.Config.Tree
import JobPipeline.Number.Layout

/-!
# From settings to a configuration

A setting is read as the type of its field. Truth values, numbers and texts stand for each other
where that makes sense: the words `true`, `on` and `yes` are one, and their opposites zero. A list
must be a list. A section is a table, or a list of its fields in order; what it does not say is left
at its default, and what it says beyond its fields does not matter.
-/

namespace JobPipeline
namespace Setting

/-- The text in lower case, as far as the words of this module go. -/
def word (s : String) : String := String.ofList (Numeral.lowerAscii s.toList)

/-- Whether a word means yes or no. -/
def truth? (s : String) : Option Bool :=
  if word s ∈ ["true", "on", "yes"] then some true
  else if word s ∈ ["false", "off", "no"] then some false
  else none

/-- An integer that is not negative. A fraction is rounded, a half away from zero, and clamped
to 64 bits. -/
def natural? : Setting → Option Nat
  | .bool b => some b.toNat
  | .integer n => if 0 ≤ n then some n.toNat else none
  | .real x => some x.toUInt64Clamped
  | .text s => match truth? s with
    | some b => some b.toNat
    | none => Numeral.unsigned? 64 s
  | _ => none

/-- A natural number below `2 ^ bits`. -/
def below? (bits : Nat) (s : Setting) : Option Nat := s.natural?.filter (· < Nat.pow 2 bits)

def word16? (s : Setting) : Option UInt16 := (s.below? 16).map UInt16.ofNat

def word32? (s : Setting) : Option UInt32 := (s.below? 32).map UInt32.ofNat

def word64? (s : Setting) : Option UInt64 := (s.below? 64).map UInt64.ofNat

/-- A truth value; a number is true unless it is zero. -/
def bool? : Setting → Option Bool
  | .bool b => some b
  | .integer n => some (n ≠ 0)
  | .real x => some (!x.isZero)
  | .text s => match truth? s with
    | some b => some b
    | none => if s = "1" then some true else if s = "0" then some false else none
  | _ => none

/-- A text; numbers are written without an exponent. -/
def text? : Setting → Option String
  | .bool b => some (if b then "true" else "false")
  | .integer n => some (toString n)
  | .real x => some (Layout.plain.text x)
  | .text s => some s
  | _ => none

def texts? : Setting → Option (List String)
  | .list items => items.mapM text?
  | _ => none

def logFormatNamed? (name : String) : Option LogFormat :=
  LogFormat.all.find? fun f => f.name = word name

/-- A log format: its name, or a table that has the name as its only key. -/
def logFormat? : Setting → Option LogFormat
  | .text s => logFormatNamed? s
  | .table [(key, _)] => logFormatNamed? key
  | _ => none

/-- The field of a section, by its position and its name. -/
def field {α : Type} (s : Setting) (i : Nat) (name : String) (read : Setting → Option α)
    (default : α) : Option α :=
  let value (v? : Option Setting) : Option α := match v? with
    | none => some default
    | some v => read v
  match s with
  | .table es => value (es.lookup name)
  | .list items => value items[i]?
  | _ => none

end Setting

open Setting

def QueueConfig.ofSetting? (s : Setting) : Option QueueConfig := do
  let capacity ← s.field 0 "capacity" word64? defaultCapacity
  return { capacity }

def WorkerConfig.ofSetting? (s : Setting) : Option WorkerConfig := do
  let concurrency ← s.field 0 "concurrency" word64? defaultConcurrency
  let workloadLatencyMs ← s.field 1 "workload_latency_ms" word64? defaultWorkloadLatencyMs
  let failingKind ← s.field 2 "failing_job_type" text? defaultFailingKind
  let shutdownTimeoutSecs ← s.field 3 "shutdown_timeout_secs" word64? defaultShutdownTimeoutSecs
  return { concurrency, workloadLatencyMs, failingKind, shutdownTimeoutSecs }

def SweeperConfig.ofSetting? (s : Setting) : Option SweeperConfig := do
  let intervalMs ← s.field 0 "interval_ms" word64? defaultIntervalMs
  return { intervalMs }

def RetryConfig.ofSetting? (s : Setting) : Option RetryConfig := do
  let maxRetries ← s.field 0 "max_retries" word32? defaultMaxRetries
  return { maxRetries }

def JobsConfig.ofSetting? (s : Setting) : Option JobsConfig := do
  let queue ← s.field 0 "queue" QueueConfig.ofSetting? default
  let worker ← s.field 1 "worker" WorkerConfig.ofSetting? default
  let sweeper ← s.field 2 "sweeper" SweeperConfig.ofSetting? default
  let retry ← s.field 3 "retry" RetryConfig.ofSetting? default
  return { queue, worker, sweeper, retry }

def AppMetadata.ofSetting? (s : Setting) : Option AppMetadata := do
  let d : AppMetadata := default
  let name ← s.field 0 "name" text? d.name
  let version ← s.field 1 "version" text? d.version
  let environment ← s.field 2 "environment" text? d.environment
  return { name, version, environment }

def ServerConfig.ofSetting? (s : Setting) : Option ServerConfig := do
  let d : ServerConfig := default
  let host ← s.field 0 "rest_host" text? d.host
  let port ← s.field 1 "rest_port" word16? d.port
  let maxBodySize ← s.field 2 "max_body_size" word64? d.maxBodySize
  let corsEnabled ← s.field 3 "cors_enabled" bool? d.corsEnabled
  let corsOrigins ← s.field 4 "cors_origins" texts? d.corsOrigins
  return { host, port, maxBodySize, corsEnabled, corsOrigins }

def ObservabilityConfig.ofSetting? (s : Setting) : Option ObservabilityConfig := do
  let d : ObservabilityConfig := default
  let logLevel ← s.field 0 "log_level" text? d.logLevel
  let logFormat ← s.field 1 "log_format" logFormat? d.logFormat
  return { logLevel, logFormat }

def AppConfig.ofSetting? (s : Setting) : Option AppConfig := do
  let app ← s.field 0 "app" AppMetadata.ofSetting? default
  let server ← s.field 1 "server" ServerConfig.ofSetting? default
  let jobs ← s.field 2 "jobs" JobsConfig.ofSetting? default
  let observability ← s.field 3 "observability" ObservabilityConfig.ofSetting? default
  return { app, server, jobs, observability }

end JobPipeline
