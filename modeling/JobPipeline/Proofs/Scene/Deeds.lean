import JobPipeline.Proofs.Scene.Moves

/-!
# What a move does to the records and the counters

Of the many moves of the actors only a few touch the store or the ledger. A `Deed` names them:
`claim`, `report`, `recover` and `create` are the successful operations of the store, `tell` is a
call of the ledger, and everything else is `rest`. `Actor.step_does` finds the deed of every move,
and the proofs about records and counters need to know no more of the actors than this.

`Actor.owed` is what an actor still has to tell the ledger for what it did to the store, and
`Actor.holding` the record of which it is to report the attempt.
-/

namespace JobPipeline

/-- What a move does to the store and the ledger. -/
inductive Deed
  | rest
  | tell (e : Ledger.Event)
  /-- The claim of a pending record. -/
  | claim (old : Job)
  /-- The accepted report of an attempt at a processing record. -/
  | report (old : Job) (result : WorkResult)
  /-- A sweep that sends `n` records back. -/
  | recover (n : Nat)
  | create (job : Job)

namespace Deed

/-- The ledger event that stands for the end of an attempt. -/
def reportEvent (old : Job) : WorkResult → Ledger.Event
  | .success => .completed
  | .failure _ => .failureReported (old.verdict = .retry)

/-- What the ledger is to be told of a deed. -/
def incurs : Deed → List Ledger.Event
  | .rest => []
  | .tell _ => []
  | .claim _ => [.claimed]
  | .report old result => [reportEvent old result]
  | .recover n => List.replicate n .retried
  | .create _ => [.created]

/-- What a deed tells the ledger. -/
def settles : Deed → List Ledger.Event
  | .tell e => [e]
  | _ => []

/-- The deed, seen on the shared parts. -/
def Effect (p p' : Pipeline) : Deed → Prop
  | .rest => p'.store = p.store ∧ p'.ledger = p.ledger
  | .tell e => p'.store = p.store ∧ p'.ledger = p.ledger.record e
  | .claim old => p.store.get? old.id = some old ∧ old.status = .pending ∧
      p'.store = p.store.set old.id old.started ∧ p'.ledger = p.ledger
  | .report old result => p.store.get? old.id = some old ∧ old.status = .processing ∧
      p'.store = p.store.set old.id (old.reported result) ∧ p'.ledger = p.ledger
  | .recover n => n = (p.store.entries.countP fun e => e.job.lapsed) ∧
      p'.store = p.store.swept ∧ p'.ledger = p.ledger
  | .create job => p.store.create job false = .ok p'.store ∧ p'.ledger = p.ledger

/-- What the deed creates is new, under an id that is not in use. -/
def Fresh (s : Store) : Deed → Prop
  | .create job => job.isNew = true ∧ s.get? job.id = none
  | _ => True

end Deed

namespace Actor

/-- What the actor still has to tell the ledger for what it did to the store, in order. -/
def owed : Actor → List Ledger.Event
  | .handling (.claimed _) => [.claimed]
  | .handling (.succeeded _) => [.completed]
  | .handling (.failed _ verdict) => [.failureReported (verdict = .retry)]
  | .sweep (.crediting n _) => List.replicate n .retried
  | .creation (.stored _) => [.created]
  | _ => []

/-- The record, as it was handed out, that the actor has claimed and not reported. -/
def holding : Actor → Option Job
  | .handling (.claimed job) => some job
  | .handling (.ready job) => some job
  | .handling (.working job) => some job
  | .handling (.reporting job _) => some job
  | _ => none

/-- The actors that do a deed, and where it leads them. Actors that rest owe what they owed; they
may let go of what they hold, but take nothing. -/
inductive Does : Actor → Deed → Actor → Prop
  | rest {a a' : Actor} (owed : a'.owed = a.owed)
      (holding : a'.holding = a.holding ∨ a'.holding = none) : Does a .rest a'
  | claim (old : Job) :
      Does (.handling (.claiming old.id)) (.claim old) (.handling (.claimed old.started))
  | tellClaimed (job : Job) :
      Does (.handling (.claimed job)) (.tell .claimed) (.handling (.ready job))
  | succeed {job old : Job} (same : job.id = old.id) :
      Does (.handling (.reporting job .success)) (.report old .success) (.handling (.succeeded job))
  | tellCompleted (job : Job) :
      Does (.handling (.succeeded job)) (.tell .completed) (.handling (.done .completed))
  | fail {job old : Job} (same : job.id = old.id) (reason : String) :
      Does (.handling (.reporting job (.failure reason))) (.report old (.failure reason))
        (.handling (.failed job old.verdict))
  | tellRetry (job : Job) :
      Does (.handling (.failed job .retry)) (.tell (.failureReported true))
        (.handling (.requeueing job))
  | tellExhausted (job : Job) :
      Does (.handling (.failed job .exhausted)) (.tell (.failureReported false))
        (.handling (.done .failed))
  | recover (n : Nat) (report : SweepReport) :
      Does (.sweep .recovering) (.recover n) (.sweep (.crediting n report))
  | credit (n : Nat) (report : SweepReport) :
      Does (.sweep (.crediting (n + 1) report)) (.tell .retried) (.sweep (.crediting n report))
  | create (job : Job) : Does (.creation (.storing job)) (.create job) (.creation (.stored job))
  | tellCreated (job : Job) :
      Does (.creation (.stored job)) (.tell .created) (.creation (.counted job))

/-- What an actor owes after a deed is what it owed, with what the deed incurs and without what
it settles. -/
theorem Does.owed_eq {a a' : Actor} {d : Deed} (h : a.Does d a') :
    a.owed ++ d.incurs = d.settles ++ a'.owed := by
  cases h with
  | rest owed => simp [Deed.incurs, Deed.settles, owed]
  | fail => simp [Actor.owed, Deed.incurs, Deed.settles, Deed.reportEvent]
  | credit => simp [Actor.owed, Deed.incurs, Deed.settles, List.replicate_succ]
  | _ => rfl

@[simp] theorem owed_answered (receipt : Receipt) : (worker (.answered receipt)).owed = [] := by
  cases receipt <;> rfl

@[simp] theorem holding_answered (receipt : Receipt) :
    (worker (.answered receipt)).holding = none := by
  cases receipt <;> rfl

theorem owed_afterOffer (ids : List JobId) (report : SweepReport) (answer : Offer) :
    (sweep (.afterOffer ids report answer)).owed = [] := by
  cases answer <;> rfl

theorem handling_does {stopped : Bool} {h h' : Handling} {p p' : Pipeline}
    (proceeds : h.Proceeds stopped p h' p') :
    ∃ d : Deed, d.Effect p p' ∧ (handling h).Does d (handling h') := by
  cases proceeds with
  | @claim old found pending => exact ⟨.claim old, ⟨found, pending, rfl, rfl⟩, .claim old⟩
  | count job => exact ⟨.tell .claimed, ⟨rfl, rfl⟩, .tellClaimed job⟩
  | start job => exact ⟨.rest, ⟨rfl, rfl⟩, .rest rfl (.inl rfl)⟩
  | @report job old same found processing result =>
    refine ⟨.report old result, ⟨found, processing, rfl, rfl⟩, ?_⟩
    cases result with
    | success => exact .succeed same
    | failure reason => exact .fail same reason
  | complete job => exact ⟨.tell .completed, ⟨rfl, rfl⟩, .tellCompleted job⟩
  | retry job => exact ⟨.tell (.failureReported true), ⟨rfl, rfl⟩, .tellRetry job⟩
  | exhaust job => exact ⟨.tell (.failureReported false), ⟨rfl, rfl⟩, .tellExhausted job⟩
  | _ => exact ⟨.rest, ⟨rfl, rfl⟩, .rest rfl (.inr rfl)⟩

theorem worker_does {r : ReceiverId} {cue : Cue} {w w' : Worker} {p p' : Pipeline}
    (moves : w.Moves r cue p w' p') :
    ∃ d : Deed, d.Effect p p' ∧ (worker w).Does d (worker w') := by
  cases moves with
  | handle proceeds => exact handling_does proceeds
  | look =>
    exact ⟨.rest, ⟨rfl, rfl⟩, .rest (owed_answered _) (.inr (holding_answered _))⟩
  | serve =>
    exact ⟨.rest, ⟨rfl, rfl⟩, .rest (owed_answered _) (.inr (holding_answered _))⟩
  | finish job => exact ⟨.rest, ⟨rfl, rfl⟩, .rest rfl (.inl rfl)⟩
  | _ => exact ⟨.rest, ⟨rfl, rfl⟩, .rest rfl (.inr rfl)⟩

theorem sweep_does {stopped : Bool} {s s' : Sweep} {p p' : Pipeline}
    (proceeds : s.Proceeds stopped p s' p') :
    ∃ d : Deed, d.Effect p p' ∧ (sweep s).Does d (sweep s') := by
  cases proceeds with
  | recover => exact ⟨.recover _, ⟨rfl, rfl, rfl⟩, .recover _ _⟩
  | credit left report => exact ⟨.tell .retried, ⟨rfl, rfl⟩, .credit left report⟩
  | offer id ids report =>
    exact ⟨.rest, ⟨rfl, rfl⟩, .rest (owed_afterOffer _ _ _) (.inr rfl)⟩
  | _ => exact ⟨.rest, ⟨rfl, rfl⟩, .rest rfl (.inr rfl)⟩

theorem creation_does {refused : Bool} {c c' : Creation} {p p' : Pipeline}
    (proceeds : c.Proceeds refused p c' p') :
    ∃ d : Deed, d.Effect p p' ∧ (creation c).Does d (creation c') := by
  cases proceeds with
  | @store job store _ wrote => exact ⟨.create job, ⟨wrote, rfl⟩, .create job⟩
  | count job => exact ⟨.tell .created, ⟨rfl, rfl⟩, .tellCreated job⟩
  | _ => exact ⟨.rest, ⟨rfl, rfl⟩, .rest rfl (.inr rfl)⟩

/-- **Every move does one deed.** -/
theorem step_does {r : ReceiverId} {cue : Cue} {a a' : Actor} {p p' : Pipeline}
    (hs : a.step r cue p = some (a', p')) :
    ∃ d : Deed, d.Effect p p' ∧ a.Does d a' := by
  cases a with
  | worker w =>
    obtain ⟨⟨w', q⟩, hw, h⟩ := Option.map_eq_some_iff.1 hs
    cases h; exact worker_does (Worker.moves_of_step hw)
  | sweep s =>
    obtain ⟨⟨s', q⟩, hw, h⟩ := Option.map_eq_some_iff.1 hs
    cases h; exact sweep_does (Sweep.proceeds_of_step hw)
  | creation c =>
    obtain ⟨⟨c', q⟩, hw, h⟩ := Option.map_eq_some_iff.1 hs
    cases h; exact creation_does (Creation.proceeds_of_step hw)

end Actor

/-- What an actor creates in a lawful action is a new record under a new id. -/
theorem Scene.fresh_of_lawful {s : Scene} {i : Nat} {cue : Cue} {a a' : Actor} {d : Deed}
    (lawful : Action.lawful s (.act i cue) = true) (ha : s.actors[i]? = some a)
    (hdoes : a.Does d a') :
    d.Fresh s.store := by
  cases d with
  | create job => cases hdoes; simpa [Action.lawful, ha, Deed.Fresh] using lawful
  | _ => exact trivial

/-- A property of records that is kept by a claim and by a report is kept by every deed, where
sweeps find nothing. -/
theorem Deed.Effect.records {P : Job → Prop} {d : Deed} {p p' : Pipeline} (h : d.Effect p p')
    (all : p.store.All P) (calm : p.store.All (·.lapsed = false))
    (claim : ∀ old, d = .claim old → P old → old.status = .pending → P old.started)
    (report : ∀ old result, d = .report old result → P old → old.status = .processing →
      P (old.reported result))
    (create : ∀ job, d = .create job → P job) : p'.store.All P := by
  cases d with
  | rest => rw [h.1]; exact all
  | tell e => rw [h.1]; exact all
  | claim old =>
    rw [h.2.2.1]
    exact all.set h.1 (Job.id_started old) (claim old rfl (all _ _ h.1) h.2.1)
  | report old result =>
    rw [h.2.2.1]
    exact all.set h.1 (Job.id_reported result old) (report old result rfl (all _ _ h.1) h.2.1)
  | recover n =>
    rw [h.2.1]
    intro id job hget
    rw [Store.get?_swept, Option.map_eq_some_iff] at hget
    obtain ⟨old, hold, rfl⟩ := hget
    rw [Job.swept_of_not_lapsed (calm id old hold)]
    exact all id old hold
  | create new => exact all.create h.1 (create new rfl)

end JobPipeline
