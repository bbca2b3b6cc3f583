import JobPipeline.Api.Cors
import JobPipeline.Api.Encoding
import JobPipeline.Api.MediaType
import JobPipeline.Api.Route
import JobPipeline.Api.Submission
import JobPipeline.Text.Percent

/-!
# Answering requests

`respond` answers one request to a service. Only a submission that is answered with 201 changes the
service; all other requests look at it.

The answer to a `HEAD` request is that to a `GET` without its body. Compression is decided on the
body a `GET` would have.
-/

namespace JobPipeline.Api

def answerData {α : Type} (status : Nat) (codec : Json.Codec α) (data : α) : Response :=
  .json status ((Envelope.codec codec).encode (.ofData data))

def answerError (e : ApiError) : Response :=
  .json e.httpStatus ((Envelope.codec Json.Codec.free).encode (.ofError e))

def health : Response := .json 200 (Health.codec.encode ⟨"healthy", packageVersion⟩)

/-- Whether the service is ready for traffic. -/
def readiness (s : Service) : Response := .empty (if s.isReady then 200 else 503)

def listJobs (s : Service) : Response :=
  answerData 200 (.list JobView.codec) (s.list.map JobView.ofJob)

/-- One job, by the escaped segment that names it. -/
def getJob (s : Service) (segment : String) : Response :=
  match Percent.decode? segment with
  | none => .text 400 "Invalid URL: Invalid UTF-8 in \x60job_id\x60"
  | some id => match s.get ⟨id⟩ with
    | .ok job => answerData 200 JobView.codec (.ofJob job)
    | .error e => answerError (.job e)

/-- The counters with a look at the store and the queue. -/
def readMetrics (s : Service) : Response :=
  answerData 200 MetricsView.codec ⟨s.ledger, s.statusCounts, s.queueStats⟩

/-- What is asked of a body before anything else is: its type, its length, its JSON, and a kind that
is not blank. -/
def submissionOf (config : ServerConfig) (r : Request) : Except Response Service.JobRequest :=
  if !r.isJson then
    .error (.text 415 "Expected request with \x60Content-Type: application/json\x60")
  else if config.maxBodySize.toNat < r.body.length then
    .error (.text 413 "Failed to buffer the request body: length limit exceeded")
  else match Submission.read r.body with
    | .error .malformed => .error (.text 400 "Failed to parse the request body as JSON")
    | .error .mismatch =>
      .error (.text 422 "Failed to deserialize the JSON body into the target type")
    | .ok submission => submission.request?.mapError answerError

def createJob (config : ServerConfig) (s : Service) (id : JobId) (now : Instant) (r : Request) :
    Response × Service :=
  match submissionOf config r with
  | .error answer => (answer, s)
  | .ok request => match s.create id now request with
    | (.ok job, s) => (answerData 201 JobView.codec (.ofJob job), s)
    | (.error e, s) => (answerError (.job e), s)

def get (s : Service) : Route → Response
  | .root => .text 200 "Conveyor API v1"
  | .health => health
  | .ready => readiness s
  | .live => .empty 200
  | .jobs => listJobs s
  | .job segment => getJob s segment
  | .metrics => readMetrics s

/-- The answer to a request that no `OPTIONS` rule takes. -/
def answer (config : ServerConfig) (s : Service) (id : JobId) (now : Instant) (r : Request) :
    Response × Service :=
  match Route.ofPath? r.path with
  | none => (.empty 404, s)
  | some route =>
    if r.method ∉ route.methods then ((Response.empty 405).adding [route.allow], s)
    else if r.method = "POST" then
      let (a, s) := createJob config s id now r
      (a.encoded r, s)
    else
      let a := (get s route).encoded r
      (if r.method = "HEAD" then { a with body := "" } else a, s)

/-- Answers a request; `id` and `now` are those of the job that it may create. -/
def respond (config : ServerConfig) (s : Service) (id : JobId) (now : Instant) (r : Request) :
    Response × Service :=
  let cors := Cors.ofConfig config
  if r.method = "OPTIONS" then
    let allow := ((Route.ofPath? r.path).map Route.allow).toList
    ((Response.empty 200).adding (cors.preflight r ++ allow), s)
  else
    let (a, s) := answer config s id now r
    (a.adding (cors.actual r), s)

end JobPipeline.Api
