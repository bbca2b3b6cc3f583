import JobPipeline.Config.Jobs
import JobPipeline.Service.Creation
import JobPipeline.Timeline.Basic

/-!
# The job service

The service owns the shared parts, starts the workers and the sweeper on them, and creates jobs. It
is `running` while it holds the handles of the tasks it started, and `accepting` until creations
have been stopped; it is ready for traffic if it is both.

Four tokens govern it. `Token.accepting` stops creations. `Token.shutdown` marks the end of the
service, and the sweeper and the workers listen to a token below it each.
-/

namespace JobPipeline

/-- The tasks a service has started, by their positions in its timeline. -/
structure Handles where
  sweeper : Nat
  workers : List Nat
deriving DecidableEq, Repr

/-- A job service: its configuration, its parts in time, and the tasks it has to wait for
when it stops. -/
structure Service where
  config : JobsConfig
  timeline : Timeline
  handles : Option Handles

/-- Why there is no service for a configuration. -/
inductive BuildFault
  /-- The configuration was refused. -/
  | refused (error : JobError)
  /-- The queue cannot be made, which nobody recovers from. -/
  | queue (fault : CapacityFault)
deriving DecidableEq, Repr

namespace Service

/-- A service over a fresh queue. -/
def ofConfig (config : JobsConfig) (executor : Executor) : Service :=
  ⟨config, .ofWorld (.initial config.queue.capacity.toNat) executor, none⟩

/-- A service with workloads of its own. -/
def withExecutor (config : JobsConfig) (executor : Executor) : Except BuildFault Service :=
  match config.validate with
  | .error e => .error (.refused e)
  | .ok () => match Queue.new? config.queue.capacity.toNat with
    | .error fault => .error (.queue fault)
    | .ok _ => .ok (ofConfig config executor)

/-- The simulated workloads of a configuration. -/
def simulatedExecutor (config : JobsConfig) : Executor :=
  .simulated config.worker.workloadLatencyMs.toNat config.worker.failingKind

/-- A service with the simulated workloads. -/
def new (config : JobsConfig) : Except BuildFault Service :=
  withExecutor config (simulatedExecutor config)

def world (s : Service) : World := s.timeline.world

def pipeline (s : Service) : Pipeline := s.world.pipeline

def withWorld (s : Service) (world : World) : Service :=
  { s with timeline := { s.timeline with world } }

def withPipeline (s : Service) (pipeline : Pipeline) : Service :=
  s.withWorld { s.world with pipeline }

def isAccepting (s : Service) : Bool := !s.world.isFired .accepting

/-- Whether the workers and the sweeper have been started and not been taken down. -/
def isRunning (s : Service) : Bool := s.handles.isSome

/-- Whether the service is ready for traffic. -/
def isReady (s : Service) : Bool := s.isRunning && s.isAccepting

/-- The refusal to start twice. -/
def alreadyRunning : JobError := .configuration "Job service already running"

/-- Starts the workers and the sweeper. -/
def start (s : Service) : Except JobError Service :=
  if s.isRunning then .error alreadyRunning
  else if s.world.isFired .shutdown then .error .cancelled
  else
    let t := s.timeline
    let first := t.workers.length
    let positions := (List.range s.config.worker.concurrency.toNat).map (first + ·)
    let workers := t.workers ++ positions.map fun i => Task.spawn i .workers
    let sweeper := SweeperTask.spawn .sweeper s.config.sweeper.intervalMs.toNat s.world.clock
    .ok { s with
      timeline := { t with workers, sweepers := t.sweepers ++ [sweeper] }
      handles := some ⟨t.sweepers.length, positions⟩ }

structure JobRequest where
  kind : String
  payload : List UInt8
  /-- The budget, if it is not to be the configured one. -/
  maxRetries : Option UInt32
deriving DecidableEq, Repr

/-- The job a request asks for. -/
def jobFor (s : Service) (id : JobId) (now : Instant) (r : JobRequest) : Job :=
  { Job.new id now r.kind r.payload with maxRetries := r.maxRetries.getD s.config.retry.maxRetries }

/-- Creates a job under a fresh id. -/
def create (s : Service) (id : JobId) (now : Instant) (r : JobRequest) :
    Except JobError Job × Service :=
  let (result, pipeline) := Creation.run (!s.isAccepting) (s.jobFor id now r) s.pipeline
  (result, s.withPipeline pipeline)

def list (s : Service) : List Job := s.pipeline.store.list

def get (s : Service) (id : JobId) : Except JobError Job :=
  match s.pipeline.store.get? id with
  | some job => .ok job
  | none => .error (.notFound id)

def ledger (s : Service) : Ledger := s.pipeline.ledger

def statusCounts (s : Service) : StatusCounts := s.pipeline.store.statusCounts

def queueStats (s : Service) : QueueStats := s.pipeline.queue.stats

/-- Performs an operation on the parts of the service behind its back. -/
def command (s : Service) (c : Command) : Reply × Service :=
  let (reply, world) := c.run s.world
  (reply, s.withWorld world)

/-- Lets the tasks of the service move until none of them can. -/
def settle (s : Service) : Service := { s with timeline := s.timeline.settle Timeline.ample }

/-- Lets some milliseconds pass; what is due at their end happens. -/
def sleep (s : Service) (ms : Nat) : Service :=
  { s with timeline := s.timeline.advanceTo (s.world.clock + ms) Timeline.ample }

end Service
end JobPipeline
