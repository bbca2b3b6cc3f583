import JobPipeline.Job.Error

/-!
# Errors of the API

An API request fails with an error of the job system, or because a field is not acceptable.
-/

namespace JobPipeline

/-- Why the API refuses a request it understood. -/
inductive ApiError
  | job (error : JobError)
  | validation (text : String)
deriving DecidableEq, Repr

namespace ApiError

/-- The wording of an error; that of a job error is its own. -/
def message : ApiError → String
  | .job e => e.message
  | .validation text => "Validation error: " ++ text

def httpStatus : ApiError → Nat
  | .job e => e.httpStatus
  | .validation _ => 400

def code : ApiError → String
  | .job e => e.code
  | .validation _ => "VALIDATION_ERROR"

end ApiError
end JobPipeline
