import JobPipeline.Job.Status

/-!
# What can go wrong with a job

`JobError` lists the causes; `message`, `httpStatus` and `code` give each its wording, its HTTP
status and its code for API clients.
-/

namespace JobPipeline

structure JobId where
  text : String
deriving DecidableEq, Repr

/-- Why an operation on jobs failed. -/
inductive JobError
  | notFound (id : JobId)
  | invalidTransition (id : JobId) (source target : Status)
  | cancelled
  | configuration (text : String)
deriving DecidableEq, Repr

namespace JobError

def message : JobError → String
  | .notFound id => "Job not found: " ++ id.text
  | .invalidTransition id source target =>
    "Invalid transition for job " ++ id.text ++ ": " ++ source.name ++ " -> " ++ target.name
  | .cancelled => "Operation was cancelled"
  | .configuration text => "Configuration error: " ++ text

def httpStatus : JobError → Nat
  | .notFound _ => 404
  | .invalidTransition .. => 409
  | .cancelled => 503
  | .configuration _ => 500

def code : JobError → String
  | .notFound _ => "NOT_FOUND"
  | .invalidTransition .. => "INVALID_TRANSITION"
  | .cancelled => "SHUTTING_DOWN"
  | .configuration _ => "CONFIGURATION_ERROR"

/-- Whether an error only says that the service is stopping. -/
def isCancelled : JobError → Bool
  | .cancelled => true
  | _ => false

end JobError
end JobPipeline
