import JobPipeline.Api.Error
import JobPipeline.Api.Figures
import JobPipeline.Api.Payload
import JobPipeline.Job.Basic
import JobPipeline.Time.Rfc3339

/-!
# What the API shows

The bodies of the API's answers. Every one but the health report is an `Envelope` that carries data
or an error. All of them can be read as well as written.

The counters of a `MetricsView` stand among its own fields. It is read from an object only, whose
members of other names must be well formed throughout.
-/

namespace JobPipeline.Api

open Json (Codec Fields)

structure ErrorBody where
  code : String
  message : String
deriving DecidableEq, Repr

/-- The frame around the data or the error of an answer. -/
structure Envelope (α : Type) where
  success : Bool
  data : Option α
  error : Option ErrorBody
deriving DecidableEq, Repr

def Envelope.ofData {α : Type} (data : α) : Envelope α := ⟨true, some data, none⟩

def Envelope.ofError {α : Type} (e : ApiError) : Envelope α :=
  ⟨false, none, some ⟨e.code, e.message⟩⟩

/-- A job as it is shown. -/
structure JobView where
  id : String
  kind : String
  status : Status
  payload : Json
  attempts : UInt32
  maxRetries : UInt32
  lastError : Option String
  createdAt : Instant
deriving Repr

def JobView.ofJob (job : Job) : JobView where
  id := job.id.text
  kind := job.kind
  status := job.status
  payload := Payload.toJson job.payload
  attempts := job.attempts
  maxRetries := job.maxRetries
  lastError := job.lastError
  createdAt := job.createdAt

/-- The counters with a look at the store and the queue. -/
structure MetricsView where
  counters : Ledger
  jobsByStatus : StatusCounts
  queue : QueueStats
deriving DecidableEq, Repr

structure Health where
  status : String
  version : String
deriving DecidableEq, Repr

def ErrorBody.codec : Codec ErrorBody :=
  .record
    (.cons (.required "code" .text) <|
      .cons (.required "message" .text) .nil)
    (fun (code, message, ()) => { code, message })
    (fun e => (e.code, e.message, ()))

/-- A field that is left out of the text when it has no value. -/
def fieldIfPresent {α : Type} (name : String) (codec : Codec α) : Json.Field (Option α) :=
  { Json.Field.nullable name codec with hidden := Option.isNone }

def Envelope.codec {α : Type} (data : Codec α) : Codec (Envelope α) :=
  .record
    (.cons (.required "success" .bool) <|
      .cons (fieldIfPresent "data" data) <|
      .cons (fieldIfPresent "error" ErrorBody.codec) .nil)
    (fun (success, data, error, ()) => { success, data, error })
    (fun e => (e.success, e.data, e.error, ()))

/-- The JSON form of a moment: its RFC 3339 text. -/
def instantCodec : Codec Instant where
  print t := Json.printString (Rfc3339.print t)
  read bound depth input := match Codec.text.read bound depth input with
    | .error f => .error f
    | .ok (s, rest) => match Rfc3339.parse? s with
      | some t => .ok (t, rest)
      | none => .error .mismatch

def JobView.codec : Codec JobView :=
  .record
    (.cons (.required "id" .text) <|
      .cons (.required "type" .text) <|
      .cons (.required "status" Status.codec) <|
      .cons (.required "payload" .free) <|
      .cons (.required "attempts" .word32) <|
      .cons (.required "max_retries" .word32) <|
      .cons (.nullable "last_error" .text) <|
      .cons (.required "created_at" instantCodec) .nil)
    (fun (id, kind, status, payload, attempts, maxRetries, lastError, createdAt, ()) =>
      { id, kind, status, payload, attempts, maxRetries, lastError, createdAt })
    (fun v => (v.id, v.kind, v.status, v.payload, v.attempts, v.maxRetries, v.lastError,
      v.createdAt, ()))

def Health.codec : Codec Health :=
  .record
    (.cons (.required "status" .text) <|
      .cons (.required "version" .text) .nil)
    (fun (status, version, ()) => { status, version })
    (fun h => (h.status, h.version, ()))

namespace MetricsView

abbrev FieldTypes : List Type := [UInt64, UInt64, UInt64, UInt64, UInt64, StatusCounts, QueueStats]

/-- The fields of the metrics: the counters first, then the figures that are looked up. -/
def fields : Fields FieldTypes :=
  .cons (.required "total_jobs_created" .word64) <|
    .cons (.required "jobs_completed" .word64) <|
    .cons (.required "jobs_failed" .word64) <|
    .cons (.required "jobs_retried" .word64) <|
    .cons (.required "jobs_in_progress" .word64) <|
    .cons (.required "jobs_by_status" StatusCounts.codec) <|
    .cons (.required "queue" QueueStats.codec) .nil

def names : List String :=
  ["total_jobs_created", "jobs_completed", "jobs_failed", "jobs_retried", "jobs_in_progress",
    "jobs_by_status", "queue"]

def ofValues : Json.Values FieldTypes → MetricsView
  | (created, completed, failed, retried, inProgress, jobsByStatus, queue, ()) =>
    ⟨⟨created, completed, failed, retried, inProgress⟩, jobsByStatus, queue⟩

def values (m : MetricsView) : Json.Values FieldTypes :=
  let c := m.counters
  (c.created, c.completed, c.failed, c.retried, c.inProgress, m.jobsByStatus, m.queue, ())

/-- Reads one member; one of an unknown name must be a value that could stand in a
free-form field. -/
def member (bound depth : Nat) (key : String) (slots : Json.Slots FieldTypes)
    (input : List Utf8.Symbol) :
    Json.Result (Json.Slots FieldTypes) :=
  if key ∈ names then fields.member bound depth key slots input
  else match Json.colon input with
    | .error f => .error f
    | .ok rest => (Json.value bound depth rest).map fun (_, rest) => (slots, rest)

def codec : Codec MetricsView where
  print m := Json.printObject (fields.print m.values)
  read bound depth input := match Json.skipSpace input, depth with
    | .char '{' :: _, 0 => .error .malformed
    | .char '{' :: rest, depth + 1 =>
      match Json.members Json.stringBody (member bound depth) bound true fields.none rest with
      | .error f => .error f
      | .ok (slots, rest) => match fields.complete slots with
        | some as => .ok (ofValues as, rest)
        | none => .error .mismatch
    | rest, _ => .error (Json.clash rest)

end MetricsView
end JobPipeline.Api
