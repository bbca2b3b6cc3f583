import JobPipeline.Proofs.Scene.Basic
import JobPipeline.Proofs.Store.Records

/-!
# What an actor can do

`Handling.Proceeds` lists the operations of a worker on the id in its hands, each with what it finds
and what it leaves behind, and `Worker.Moves` the operations around them. `Sweep.Proceeds` and
`Creation.Proceeds` do the same for the other actors. What is proved about actors is proved by cases
on these, so the steps themselves are taken apart here and nowhere else.
-/

namespace JobPipeline

namespace Handling

/-- Where an accepted report leads. -/
def afterReport (job old : Job) : WorkResult → Handling
  | .success => .succeeded job
  | .failure _ => .failed job old.verdict

/-- One operation on the id in hands. -/
inductive Proceeds (stopped : Bool) (p : Pipeline) : Handling → Handling → Pipeline → Prop
  | claim {old : Job} (found : p.store.get? old.id = some old) (pending : old.status = .pending) :
      Proceeds stopped p (.claiming old.id) (.claimed old.started)
        { p with store := p.store.set old.id old.started }
  | skip {id : JobId} (unclaimable : ∀ job, p.store.get? id = some job → job.status ≠ .pending) :
      Proceeds stopped p (.claiming id) (.done .notClaimable) p
  | count (job : Job) : Proceeds stopped p (.claimed job) (.ready job) (p.record .claimed)
  | start (job : Job) (running : stopped = false) :
      Proceeds stopped p (.ready job) (.working job) p
  | forgo (job : Job) (stops : stopped = true) :
      Proceeds stopped p (.ready job) (.done .aborted) p
  | interrupt (job : Job) (stops : stopped = true) :
      Proceeds stopped p (.working job) (.done .aborted) p
  | report {job old : Job} (same : job.id = old.id) (found : p.store.get? old.id = some old)
      (processing : old.status = .processing) (result : WorkResult) :
      Proceeds stopped p (.reporting job result) (afterReport job old result)
        { p with store := p.store.set old.id (old.reported result) }
  | reject {job : Job} (result : WorkResult)
      (refused : ∀ old, p.store.get? job.id = some old → old.status ≠ .processing) :
      Proceeds stopped p (.reporting job result) (.done .reportRejected) p
  | complete (job : Job) :
      Proceeds stopped p (.succeeded job) (.done .completed) (p.record .completed)
  | retry (job : Job) :
      Proceeds stopped p (.failed job .retry) (.requeueing job) (p.record (.failureReported true))
  | exhaust (job : Job) :
      Proceeds stopped p (.failed job .exhausted) (.done .failed)
        (p.record (.failureReported false))
  | requeue (job : Job) :
      Proceeds stopped p (.requeueing job) (.done (.retrying (p.queue.offer job.id).1))
        { p with queue := (p.queue.offer job.id).2 }

theorem proceeds_of_step {stopped : Bool} {h h' : Handling} {p p' : Pipeline}
    (hs : h.step stopped p = some (h', p')) : h.Proceeds stopped p h' p' := by
  cases h with
  | claiming id =>
    simp only [step] at hs
    split at hs
    · rename_i hc
      cases hs
      exact .skip (Store.claim_eq_none_iff.1 hc)
    · rename_i job store hc
      obtain ⟨old, hold, hp, rfl, rfl⟩ := Store.claim_eq_some_iff.1 hc
      obtain rfl := Store.id_of_get? hold
      cases hs
      exact .claim hold hp
  | claimed job => cases hs; exact .count job
  | ready job =>
    cases stopped with
    | true => cases hs; exact .forgo job rfl
    | false => cases hs; exact .start job rfl
  | working job =>
    cases stopped with
    | true => cases hs; exact .interrupt job rfl
    | false => cases hs
  | reporting job result =>
    have refused {old : Job} (hold : p.store.get? job.id = some old)
        (processing : old.status = .processing) (hdone : h' = .done .reportRejected) : False := by
      subst hdone
      cases result with
      | success =>
        have hok := Store.reportSuccess_eq_ok_iff.2 ⟨old, hold, processing, rfl⟩
        simp [step, hok] at hs
      | failure reason =>
        have hok : p.store.reportFailure job.id reason = .ok (old.verdict, _) :=
          Store.reportFailure_eq_ok_iff.2 ⟨old, hold, processing, rfl, rfl⟩
        simp [step, hok] at hs
    cases result with
    | success =>
      simp only [step] at hs
      split at hs
      · rename_i store hr
        obtain ⟨old, hold, hp, rfl⟩ := Store.reportSuccess_eq_ok_iff.1 hr
        have hid := Store.id_of_get? hold
        cases hs
        rw [← hid] at hold ⊢
        exact .report hid.symm hold hp .success
      · cases hs
        exact .reject .success fun old hold processing => refused hold processing rfl
    | failure reason =>
      simp only [step] at hs
      split at hs
      · rename_i verdict store hr
        obtain ⟨old, hold, hp, rfl, rfl⟩ := Store.reportFailure_eq_ok_iff.1 hr
        have hid := Store.id_of_get? hold
        cases hs
        rw [← hid] at hold ⊢
        exact .report hid.symm hold hp (.failure reason)
      · cases hs
        exact .reject (.failure reason) fun old hold processing => refused hold processing rfl
  | succeeded job => cases hs; exact .complete job
  | failed job verdict =>
    cases verdict with
    | retry => cases hs; exact .retry job
    | exhausted => cases hs; exact .exhaust job
  | requeueing job => cases hs; exact .requeue job
  | done outcome => cases hs

/-- A workload starts when it is ready. -/
theorem Proceeds.ready {stopped : Bool} {h h' : Handling} {p p' : Pipeline}
    (proceeds : h.Proceeds stopped p h' p') {job : Job} (starts : h' = .working job) :
    h = .ready job := by
  cases proceeds with
  | start => cases starts; rfl
  | report _ _ _ result => cases result <;> cases starts
  | _ => cases starts

/-- A handling waits for nothing but its workload, and for that only as long as it is not told to
stop. -/
theorem isSome_step {h : Handling} {stopped : Bool} (undone : ∀ outcome, h ≠ .done outcome)
    (free : stopped = true ∨ ∀ job, h ≠ .working job) (p : Pipeline) :
    (h.step stopped p).isSome = true := by
  cases h with
  | claiming id => simp only [step]; split <;> rfl
  | working job =>
    rcases free with rfl | idle
    · rfl
    · exact absurd rfl (idle job)
  | reporting job result => cases result <;> simp only [step] <;> split <;> rfl
  | failed job verdict => cases verdict <;> rfl
  | done outcome => exact absurd rfl (undone outcome)
  | _ => rfl

end Handling

namespace Worker

/-- One operation of the worker that is the receiver `r`. -/
inductive Moves (r : ReceiverId) (cue : Cue) (p : Pipeline) : Worker → Worker → Pipeline → Prop
  | quit (stops : cue.stopped = true) : Moves r cue p .looking .stopped p
  | look (running : cue.stopped = false) :
      Moves r cue p .looking (Worker.look r p).1 (Worker.look r p).2
  | desert (stops : cue.stopped = true) :
      Moves r cue p .waiting .stopped { p with queue := p.queue.abandon r }
  | serve (running : cue.stopped = false) (served : p.queue.canServe r = true) :
      Moves r cue p .waiting (Worker.look r p).1 (Worker.look r p).2
  | handle {h h' : Handling} {p' : Pipeline} (proceeds : h.Proceeds cue.stopped p h' p') :
      Moves r cue p (.handling h) (.handling h') p'
  | finish (job : Job) {result : WorkResult} (ending : cue.ending = .result result) :
      Moves r cue p (.handling (.working job)) (.handling (.reporting job result)) p
  | die (job : Job) (ending : cue.ending = .panic) :
      Moves r cue p (.handling (.working job)) .died p
  | leave : Moves r cue p (.handling (.done .aborted)) .stopped p
  | next {outcome : Outcome} (kept : outcome ≠ .aborted) :
      Moves r cue p (.handling (.done outcome)) .looking p

theorem moves_of_step {r : ReceiverId} {cue : Cue} {w w' : Worker} {p p' : Pipeline}
    (hs : w.step r cue p = some (w', p')) : w.Moves r cue p w' p' := by
  obtain ⟨stopped, ending⟩ := cue
  cases w with
  | looking =>
    cases stopped with
    | true => cases hs; exact .quit rfl
    | false => cases hs; exact .look rfl
  | waiting =>
    cases stopped with
    | true => cases hs; exact .desert rfl
    | false =>
      simp only [step, Bool.false_eq_true, if_false] at hs
      split at hs
      · rename_i hserve
        cases hs
        exact .serve rfl hserve
      · cases hs
  | stopped => cases hs
  | died => cases hs
  | handling h =>
    cases h with
    | working job =>
      cases stopped with
      | true => cases hs; exact .handle (.interrupt job rfl)
      | false =>
        cases ending with
        | result result => cases hs; exact .finish job rfl
        | panic => cases hs; exact .die job rfl
    | done outcome =>
      simp only [step, Option.some.injEq] at hs
      split at hs
      · rename_i h; subst h; cases hs; exact .leave
      · rename_i h; cases hs; exact .next h
    | _ =>
      simp only [step, Option.map_eq_some_iff] at hs
      obtain ⟨⟨h', q⟩, hh, hw⟩ := hs
      cases hw
      exact .handle (Handling.proceeds_of_step hh)

/-- What a worker does about an id is a step of the handling, but for the end of its workload. -/
theorem step_handling {r : ReceiverId} {cue : Cue} {h h' : Handling} {p p' : Pipeline}
    (hs : h.step cue.stopped p = some (h', p')) :
    (handling h).step r cue p = some (.handling h', p') := by
  obtain ⟨stopped, ending⟩ := cue
  cases h with
  | working job =>
    cases stopped with
    | true => cases hs; rfl
    | false => cases hs
  | done outcome => cases hs
  | _ => simp only [step, hs, Option.map_some]

end Worker

namespace Sweep

/-- Where the answer to an offer leads. -/
def afterOffer (ids : List JobId) (report : SweepReport) : Offer → Sweep
  | .accepted => .offering ids { report with offered := report.offered + 1 }
  | .full => .offering ids { report with dropped := report.dropped + 1 }
  | .closed => .done { report with interrupted := true }

/-- One operation of a sweep. -/
inductive Proceeds (stopped : Bool) (p : Pipeline) : Sweep → Sweep → Pipeline → Prop
  | recover (running : stopped = false) :
      Proceeds stopped p .recovering
        (.crediting (p.store.entries.countP fun e => e.job.lapsed)
          { recovered := p.store.entries.countP fun e => e.job.lapsed })
        { p with store := p.store.swept }
  | forgo (stops : stopped = true) :
      Proceeds stopped p .recovering (.done { interrupted := true }) p
  | credit (left : Nat) (report : SweepReport) :
      Proceeds stopped p (.crediting (left + 1) report) (.crediting left report) (p.record .retried)
  | settle (report : SweepReport) :
      Proceeds stopped p (.crediting 0 report) (.listing report) p
  | list (report : SweepReport) :
      Proceeds stopped p (.listing report) (.offering (p.store.listPending.map Job.id) report) p
  | offer (id : JobId) (ids : List JobId) (report : SweepReport) (running : stopped = false) :
      Proceeds stopped p (.offering (id :: ids) report) (afterOffer ids report (p.offer id).1)
        (p.offer id).2
  | interrupt (id : JobId) (ids : List JobId) (report : SweepReport) (stops : stopped = true) :
      Proceeds stopped p (.offering (id :: ids) report)
        (.done { report with interrupted := true }) p
  | finish (report : SweepReport) : Proceeds stopped p (.offering [] report) (.done report) p

theorem proceeds_of_step {stopped : Bool} {s s' : Sweep} {p p' : Pipeline}
    (hs : s.step stopped p = some (s', p')) : s.Proceeds stopped p s' p' := by
  cases s with
  | recovering =>
    cases stopped with
    | true => cases hs; exact .forgo rfl
    | false =>
      simp only [step, Store.recoverEligible_eq] at hs
      cases hs
      exact .recover rfl
  | crediting left report =>
    cases left with
    | zero => cases hs; exact .settle report
    | succ left => cases hs; exact .credit left report
  | listing report => cases hs; exact .list report
  | offering ids report =>
    cases ids with
    | nil => cases hs; exact .finish report
    | cons id ids =>
      cases stopped with
      | true => cases hs; exact .interrupt id ids report rfl
      | false =>
        have offered : some (s', p') =
            some (afterOffer ids report (p.offer id).1, (p.offer id).2) := by
          rw [← hs]
          simp only [step, Bool.false_eq_true, if_false]
          cases (p.offer id).1 <;> rfl
        cases offered
        exact .offer id ids report rfl
  | done report => cases hs

end Sweep

namespace Creation

/-- One operation of a creation. -/
inductive Proceeds (refused : Bool) (p : Pipeline) : Creation → Creation → Pipeline → Prop
  | store {job : Job} {store : Store} (accepted : refused = false)
      (wrote : p.store.create job false = .ok store) :
      Proceeds refused p (.storing job) (.stored job) { p with store }
  | refuse {job : Job} {error : JobError} (refuses : p.store.create job refused = .error error) :
      Proceeds refused p (.storing job) (.done (.error error)) p
  | count (job : Job) : Proceeds refused p (.stored job) (.counted job) (p.record .created)
  | offer (job : Job) :
      Proceeds refused p (.counted job) (.done (.ok job)) (p.offer job.id).2

theorem proceeds_of_step {refused : Bool} {c c' : Creation} {p p' : Pipeline}
    (hs : c.step refused p = some (c', p')) : c.Proceeds refused p c' p' := by
  cases c with
  | storing job =>
    simp only [step] at hs
    split at hs
    · rename_i store wrote
      obtain ⟨rfl, -⟩ := Store.create_eq_ok_iff.1 wrote
      cases hs
      exact .store rfl wrote
    · rename_i error refuses
      cases hs
      exact .refuse refuses
  | stored job => cases hs; exact .count job
  | counted job => cases hs; exact .offer job
  | done result => cases hs

end Creation
end JobPipeline
