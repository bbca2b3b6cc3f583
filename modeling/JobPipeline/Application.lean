import JobPipeline.Config.App
import JobPipeline.Service.Shutdown

/-!
# The application

The application builds the job service from the configuration, runs it for as long as it serves, and
shuts it down. What goes wrong is told as a chain: what was being done, and why it failed.
-/

namespace JobPipeline

/-- What was being done, and why it failed. -/
structure Failure where
  context : String
  cause : JobError
deriving DecidableEq, Repr

namespace Failure

def chain (f : Failure) : List String := [f.context, f.cause.message]

end Failure

/-- An application that is built and not yet running. -/
structure Application where
  config : AppConfig
  service : Service

namespace Application

inductive Fault
  | failed (failure : Failure)
  /-- The queue cannot be made, which nobody recovers from. -/
  | queue (fault : CapacityFault)
deriving DecidableEq, Repr

/-- Builds the job service. -/
def build (config : AppConfig) : Except Fault Application :=
  match Service.new config.jobs with
  | .ok service => .ok ⟨config, service⟩
  | .error (.refused cause) => .error (.failed ⟨"Failed to build job service", cause⟩)
  | .error (.queue fault) => .error (.queue fault)

/-- Starts the service, serves while `serve` lasts, and shuts the service down. -/
def run (a : Application) (serve : Service → Service) : Except Failure Service :=
  match a.service.start with
  | .error cause => .error ⟨"Failed to start job service", cause⟩
  | .ok service => .ok (serve service).shutdown

end Application
end JobPipeline
