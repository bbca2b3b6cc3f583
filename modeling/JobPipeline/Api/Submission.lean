import JobPipeline.Api.View
import JobPipeline.Service.Basic

/-!
# Submitting a job

The body of a submission names the kind of the job and may carry a payload and a retry budget.
`Submission.read` takes what the body says up to the end of the first JSON value in it.
-/

namespace JobPipeline.Api

open Json (Codec)

/-- The body of a request for a job. -/
structure Submission where
  kind : String
  payload : Json
  maxRetries : Option UInt32
deriving Repr

namespace Submission

def codec : Codec Submission :=
  .record
    (.cons (.required "type" .text) <|
      .cons (.withDefault "payload" .free .null) <|
      .cons (.nullable "max_retries" .word32) .nil)
    (fun (kind, payload, maxRetries, ()) => { kind, payload, maxRetries })
    (fun s => (s.kind, s.payload, s.maxRetries, ()))

/-- Reads a body; whatever follows the value in it does not matter. -/
def read (body : List UInt8) : Except Json.Fault Submission :=
  (codec.decodePrefix (Utf8.decode body)).map Prod.fst

/-- The job that is asked for, unless its kind is blank. -/
def request? (s : Submission) : Except ApiError Service.JobRequest :=
  let kind := trim s.kind
  if kind.isEmpty then .error (.validation "type must not be empty")
  else .ok ⟨kind, Payload.ofJson s.payload, s.maxRetries⟩

end Submission
end JobPipeline.Api
