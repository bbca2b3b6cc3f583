import JobPipeline.Job.Basic
import JobPipeline.Json.Codec
import JobPipeline.Queue.Basic

/-!
# Configuration of the job system

Four sections, each of whose fields has a default, so that any part may be left out: a field that a
section lacks is at the default of that field, and a section that is missing is the `default` of its
type. `JobsConfig.validate` names the first setting that nothing can be run with. `JobsConfig.codec`
is the JSON form.
-/

namespace JobPipeline

/-! ## The defaults of the fields -/

def QueueConfig.defaultCapacity : UInt64 := 100

namespace WorkerConfig

def defaultConcurrency : UInt64 := 4

def defaultWorkloadLatencyMs : UInt64 := 1000

def defaultFailingKind : String := "always_fail"

def defaultShutdownTimeoutSecs : UInt64 := 30

end WorkerConfig

def SweeperConfig.defaultIntervalMs : UInt64 := 5000

def RetryConfig.defaultMaxRetries : UInt32 := JobPipeline.defaultMaxRetries

/-! ## The sections -/

structure QueueConfig where
  /-- How many ids the queue buffers. -/
  capacity : UInt64 := QueueConfig.defaultCapacity
deriving DecidableEq, Repr

instance : Inhabited QueueConfig := ⟨{}⟩

@[simp] theorem QueueConfig.default_eq : (default : QueueConfig) = {} := rfl

structure WorkerConfig where
  concurrency : UInt64 := WorkerConfig.defaultConcurrency
  /-- How long a simulated workload takes, in milliseconds. -/
  workloadLatencyMs : UInt64 := WorkerConfig.defaultWorkloadLatencyMs
  /-- The kind of job that a simulated workload always fails. -/
  failingKind : String := WorkerConfig.defaultFailingKind
  /-- How long a shutdown waits for the workers, in seconds. -/
  shutdownTimeoutSecs : UInt64 := WorkerConfig.defaultShutdownTimeoutSecs
deriving DecidableEq, Repr

instance : Inhabited WorkerConfig := ⟨{}⟩

@[simp] theorem WorkerConfig.default_eq : (default : WorkerConfig) = {} := rfl

structure SweeperConfig where
  /-- The time between two sweeps, in milliseconds. -/
  intervalMs : UInt64 := SweeperConfig.defaultIntervalMs
deriving DecidableEq, Repr

instance : Inhabited SweeperConfig := ⟨{}⟩

@[simp] theorem SweeperConfig.default_eq : (default : SweeperConfig) = {} := rfl

structure RetryConfig where
  /-- The budget of a job created without one. -/
  maxRetries : UInt32 := RetryConfig.defaultMaxRetries
deriving DecidableEq, Repr

instance : Inhabited RetryConfig := ⟨{}⟩

@[simp] theorem RetryConfig.default_eq : (default : RetryConfig) = {} := rfl

structure JobsConfig where
  queue : QueueConfig := {}
  worker : WorkerConfig := {}
  sweeper : SweeperConfig := {}
  retry : RetryConfig := {}
deriving DecidableEq, Repr

instance : Inhabited JobsConfig := ⟨{}⟩

@[simp] theorem JobsConfig.default_eq : (default : JobsConfig) = {} := rfl

namespace JobsConfig

/-- Refuses the settings nothing can be run with; of several the first in this order is named. -/
def validate (c : JobsConfig) : Except JobError Unit :=
  if c.queue.capacity = 0 then .error (.configuration "queue.capacity must be greater than zero")
  else if c.worker.concurrency = 0 then
    .error (.configuration "worker.concurrency must be greater than zero")
  else if c.sweeper.intervalMs = 0 then
    .error (.configuration "sweeper.interval_ms must be greater than zero")
  else .ok ()

end JobsConfig

open Json (Codec)

def QueueConfig.codec : Codec QueueConfig :=
  .record (.cons (.withDefault "capacity" .word64 defaultCapacity) .nil)
    (fun (capacity, ()) => { capacity })
    (fun c => (c.capacity, ()))

def WorkerConfig.codec : Codec WorkerConfig :=
  .record
    (.cons (.withDefault "concurrency" .word64 defaultConcurrency) <|
      .cons (.withDefault "workload_latency_ms" .word64 defaultWorkloadLatencyMs) <|
      .cons (.withDefault "failing_job_type" .text defaultFailingKind) <|
      .cons (.withDefault "shutdown_timeout_secs" .word64 defaultShutdownTimeoutSecs) .nil)
    (fun (concurrency, workloadLatencyMs, failingKind, shutdownTimeoutSecs, ()) =>
      { concurrency, workloadLatencyMs, failingKind, shutdownTimeoutSecs })
    (fun c => (c.concurrency, c.workloadLatencyMs, c.failingKind, c.shutdownTimeoutSecs, ()))

def SweeperConfig.codec : Codec SweeperConfig :=
  .record (.cons (.withDefault "interval_ms" .word64 defaultIntervalMs) .nil)
    (fun (intervalMs, ()) => { intervalMs })
    (fun c => (c.intervalMs, ()))

def RetryConfig.codec : Codec RetryConfig :=
  .record (.cons (.withDefault "max_retries" .word32 defaultMaxRetries) .nil)
    (fun (maxRetries, ()) => { maxRetries })
    (fun c => (c.maxRetries, ()))

def JobsConfig.codec : Codec JobsConfig :=
  .record
    (.cons (.withDefault "queue" QueueConfig.codec default) <|
      .cons (.withDefault "worker" WorkerConfig.codec default) <|
      .cons (.withDefault "sweeper" SweeperConfig.codec default) <|
      .cons (.withDefault "retry" RetryConfig.codec default) .nil)
    (fun (queue, worker, sweeper, retry, ()) => { queue, worker, sweeper, retry })
    (fun c => (c.queue, c.worker, c.sweeper, c.retry, ()))

end JobPipeline
