import JobPipeline.Job.Basic

/-!
# The job store

The store keeps one record per id, together with the position at which the record was inserted. A
`create` of a known id replaces the record and counts as a new insertion. Listings are ordered by
creation time, records of one time by insertion.

`claim` is the only way into `processing`. `reportSuccess` and `reportFailure` end an attempt, and
`recoverEligible` sends every failed job that is within its budget back to `pending`.
-/

namespace JobPipeline

structure StatusCounts where
  pending : UInt64
  processing : UInt64
  completed : UInt64
  failed : UInt64
deriving DecidableEq, Repr

/-- The number of jobs in all states. -/
def StatusCounts.total (c : StatusCounts) : UInt64 :=
  c.pending + c.processing + c.completed + c.failed

namespace Store

/-- A record and the position of its insertion. Positions are numbered without an end; as long as
there are fewer insertions than a word of 64 bits can number, they fit into one
(`Store.Lists.positions`). -/
structure Entry where
  seq : Nat
  job : Job
deriving DecidableEq, Repr

/-- Whether `a` is listed no later than `b`. -/
def Entry.le (a b : Entry) : Bool :=
  if a.job.createdAt = b.job.createdAt then a.seq ≤ b.seq else a.job.createdAt ≤ b.job.createdAt

end Store

structure Store where
  entries : List Store.Entry
  /-- The position of the next insertion. -/
  nextSeq : Nat
deriving DecidableEq, Repr

namespace Store

def empty : Store := ⟨[], 0⟩

def find? (s : Store) (id : JobId) : Option Entry := s.entries.find? fun e => e.job.id = id

def get? (s : Store) (id : JobId) : Option Job := (s.find? id).map Entry.job

/-- The entries with the record of one id changed. -/
def set (s : Store) (id : JobId) (job : Job) : Store :=
  { s with entries := s.entries.map fun e => if e.job.id = id then { e with job } else e }

/-- The records that satisfy a predicate, in listing order. -/
def listWhere (s : Store) (keep : Job → Bool) : List Job :=
  ((s.entries.filter fun e => keep e.job).mergeSort Entry.le).map Entry.job

/-- All records, oldest first. -/
def list (s : Store) : List Job := s.listWhere fun _ => true

/-- The pending records, oldest first. -/
def listPending (s : Store) : List Job := s.listWhere fun job => job.status = .pending

def listFailed (s : Store) : List Job := s.listWhere fun job => job.status = .failed

def size (s : Store) : Nat := s.entries.length

def count (s : Store) (status : Status) : Nat := s.entries.countP fun e => e.job.status = status

def statusCounts (s : Store) : StatusCounts :=
  ⟨.ofNat (s.count .pending), .ofNat (s.count .processing), .ofNat (s.count .completed),
    .ofNat (s.count .failed)⟩

/-- Inserts a record, in place of an earlier one of the same id; refused once creations are
cancelled. -/
def create (s : Store) (job : Job) (cancelled : Bool) : Except JobError Store :=
  if cancelled then .error .cancelled
  else
    let others := s.entries.filter fun e => e.job.id ≠ job.id
    .ok ⟨others ++ [⟨s.nextSeq, job⟩], s.nextSeq + 1⟩

/-- Moves a pending job to processing and hands out its record; nothing if there is no such job or
it is not pending. -/
def claim (s : Store) (id : JobId) : Option (Job × Store) :=
  match s.get? id with
  | none => none
  | some job => match job.claimed with
    | .error _ => none
    | .ok job => some (job, s.set id job)

/-- Ends an attempt as a success. -/
def reportSuccess (s : Store) (id : JobId) : Except JobError Store :=
  match s.get? id with
  | none => .error (.notFound id)
  | some job => job.succeeded.map (s.set id)

/-- Ends an attempt as a failure and decides whether another follows. -/
def reportFailure (s : Store) (id : JobId) (reason : String) : Except JobError (Verdict × Store) :=
  match s.get? id with
  | none => .error (.notFound id)
  | some job => (job.failedWith reason).map fun (verdict, job) => (verdict, s.set id job)

/-- The entries with every retryable failed job pending again, and how many those are. -/
def recoverEntries : List Entry → Except JobError (Nat × List Entry)
  | [] => .ok (0, [])
  | e :: rest => do
    let (moved, job) ← e.job.recovered
    let (n, rest) ← recoverEntries rest
    return (n + moved.toNat, { e with job } :: rest)

/-- Moves every retryable failed job back to pending; tells how many moved. -/
def recoverEligible (s : Store) (cancelled : Bool) : Except JobError (Nat × Store) :=
  if cancelled then .error .cancelled
  else (recoverEntries s.entries).map fun (n, entries) => (n, { s with entries })

end Store
end JobPipeline
