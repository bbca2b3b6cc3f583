import JobPipeline.Pipeline

/-!
# One sweep

A sweep moves every retryable failed job back to pending, tells the ledger of each, and then offers
every pending id to the queue in listing order. An offer that does not fit is left to the next
sweep. The sweep ends early, and says so, when its stop signal fires or the queue is closed.

`Sweep.step` does one operation at a time; `Sweep.run` is a sweep that nothing interrupts.
-/

namespace JobPipeline

/-- What a sweep did. -/
structure SweepReport where
  /-- Failed jobs moved back to pending. -/
  recovered : Nat := 0
  /-- Ids the queue accepted. -/
  offered : Nat := 0
  /-- Ids the full queue dropped. -/
  dropped : Nat := 0
  /-- The sweep ended early. -/
  interrupted : Bool := false
deriving DecidableEq, Repr

/-- How far a sweep has come. -/
inductive Sweep
  | recovering
  /-- The ledger is to be told of `left` recovered jobs. -/
  | crediting (left : Nat) (report : SweepReport)
  | listing (report : SweepReport)
  | offering (ids : List JobId) (report : SweepReport)
  | done (report : SweepReport)
deriving DecidableEq, Repr

namespace Sweep

/-- One operation on the shared parts; `stopped` tells whether the stop signal has fired. -/
def step (stopped : Bool) : Sweep → Pipeline → Option (Sweep × Pipeline)
  | .recovering, p => match p.store.recoverEligible stopped with
    | .ok (n, store) => some (.crediting n { recovered := n }, { p with store })
    | .error _ => some (.done { interrupted := true }, p)
  | .crediting 0 r, p => some (.listing r, p)
  | .crediting (left + 1) r, p => some (.crediting left r, p.record .retried)
  | .listing r, p => some (.offering (p.store.listPending.map Job.id) r, p)
  | .offering [] r, p => some (.done r, p)
  | .offering (id :: ids) r, p =>
    if stopped then some (.done { r with interrupted := true }, p)
    else
      let (answer, p) := p.offer id
      match answer with
      | .accepted => some (.offering ids { r with offered := r.offered + 1 }, p)
      | .full => some (.offering ids { r with dropped := r.dropped + 1 }, p)
      | .closed => some (.done { r with interrupted := true }, p)
  | .done _, _ => none

def report : Sweep → SweepReport
  | .recovering => {}
  | .crediting _ r => r
  | .listing r => r
  | .offering _ r => r
  | .done r => r

/-- More steps than an uninterrupted sweep takes. -/
def bound (p : Pipeline) : Nat := 2 * p.store.size + 5

/-- A sweep that nothing interrupts, over parts that nobody else touches. -/
def run (stopped : Bool) (p : Pipeline) : SweepReport × Pipeline :=
  let (sweep, p) := iterate (fun (s, p) => s.step stopped p) (bound p) (Sweep.recovering, p)
  (sweep.report, p)

end Sweep
end JobPipeline
