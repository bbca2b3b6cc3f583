import JobPipeline.Json.Codec
import JobPipeline.Ledger.Basic
import JobPipeline.Queue.Basic
import JobPipeline.Store.Basic

/-!
# Figures in JSON

The JSON forms of job ids, of the counters, and of the looks at the store and the queue. A number
that no caller may leave out is a required field.
-/

namespace JobPipeline

open Json (Codec Fields)

/-- The JSON form of a job id: its text. -/
def JobId.codec : Codec JobId := Codec.text.via JobId.mk JobId.text

/-- The JSON form of a status: its name. -/
def Status.codec : Codec Status := .names Status.all Status.name

/-- The fields that show the counters. -/
def Ledger.fields : Fields [UInt64, UInt64, UInt64, UInt64, UInt64] :=
  .cons (.required "total_jobs_created" .word64) <|
    .cons (.required "jobs_completed" .word64) <|
    .cons (.required "jobs_failed" .word64) <|
    .cons (.required "jobs_retried" .word64) <|
    .cons (.required "jobs_in_progress" .word64) .nil

def Ledger.ofValues : Json.Values [UInt64, UInt64, UInt64, UInt64, UInt64] → Ledger
  | (created, completed, failed, retried, inProgress, ()) =>
    ⟨created, completed, failed, retried, inProgress⟩

def Ledger.values (l : Ledger) : Json.Values [UInt64, UInt64, UInt64, UInt64, UInt64] :=
  (l.created, l.completed, l.failed, l.retried, l.inProgress, ())

def Ledger.codec : Codec Ledger := .record Ledger.fields Ledger.ofValues Ledger.values

def StatusCounts.codec : Codec StatusCounts :=
  .record
    (.cons (.required "pending" .word64) <|
      .cons (.required "processing" .word64) <|
      .cons (.required "completed" .word64) <|
      .cons (.required "failed" .word64) .nil)
    (fun (pending, processing, completed, failed, ()) => { pending, processing, completed, failed })
    (fun c => (c.pending, c.processing, c.completed, c.failed, ()))

def QueueStats.codec : Codec QueueStats :=
  .record
    (.cons (.required "capacity" .word64) <|
      .cons (.required "buffered" .word64) <|
      .cons (.required "open" .bool) .nil)
    (fun (capacity, buffered, isOpen, ()) => { capacity, buffered, isOpen })
    (fun q => (q.capacity, q.buffered, q.isOpen, ()))

end JobPipeline
