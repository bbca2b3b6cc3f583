import JobPipeline.Ledger.Basic
import JobPipeline.Queue.Basic
import JobPipeline.Store.Basic

/-!
# The shared parts and their stop signals

A `Pipeline` is what all actors share: the store, the queue and the ledger. Every actor of the
library (a worker handling an id, a sweep, a creation, a shutdown) is a machine whose `step` does
one operation on one of the three parts, so that any interleaving of actors is a sequence of such
steps.

A `Token` is a stop signal. Tokens form a tree: firing one fires all tokens below it.
-/

namespace JobPipeline

structure Pipeline where
  store : Store
  queue : Queue
  ledger : Ledger
deriving DecidableEq, Repr

namespace Pipeline

/-- Nothing stored, buffered or counted. -/
def empty (capacity : Nat) : Pipeline := ⟨.empty, .ofCapacity capacity, .zero⟩

def record (p : Pipeline) (e : Ledger.Event) : Pipeline := { p with ledger := p.ledger.record e }

def offer (p : Pipeline) (id : JobId) : Offer × Pipeline :=
  let (answer, queue) := p.queue.offer id
  (answer, { p with queue })

end Pipeline

/-- A stop signal, by its path from the root of the token tree. -/
structure Token where
  path : List String
deriving DecidableEq, Repr

namespace Token

def named (name : String) : Token := ⟨["named", name]⟩

/-- The signal that creations are no longer accepted. -/
def accepting : Token := ⟨["accepting"]⟩

def shutdown : Token := ⟨["shutdown"]⟩

def sweeper : Token := ⟨["shutdown", "sweeper"]⟩

def workers : Token := ⟨["shutdown", "workers"]⟩

/-- Whether a token counts as fired once the given ones have been. -/
def isFired (t : Token) (fired : List Token) : Bool := fired.any fun f => f.path.isPrefixOf t.path

end Token

/-- Repeats a step until there is none, at most `fuel` times. -/
def iterate {σ : Type} (step : σ → Option σ) : Nat → σ → σ
  | 0, s => s
  | fuel + 1, s => match step s with
    | none => s
    | some s => iterate step fuel s

end JobPipeline
