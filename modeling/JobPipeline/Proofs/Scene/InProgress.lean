import JobPipeline.Proofs.Scene.Accounts

/-!
# Jobs in progress

A job may be replaced at any time, also while a worker is executing it. Then the report of the
worker is of a job that is not processing, and the store refuses it. This module follows the counter
of jobs in progress through such runs.

The counter is watched from outside: `Watched` notes how often each process call raises and lowers
it, and how the call ends. What is noted is a matter of the end alone (`CallEnd.moved`), wherever
the replacements fall (`Watched.Kept`). A call that reports lowers what it has raised. One that is
aborted, that panics, or whose report is refused does not, so the counter shows these for good
(`inProgress_shows_unreported`).
-/

namespace JobPipeline

/-- How a process call can end. -/
inductive CallEnd
  | returned (outcome : Outcome)
  /-- The workload panicked. -/
  | panicked
deriving DecidableEq, Repr

/-- How often the counter of jobs in progress went up and down. -/
structure Moved where
  raised : Nat
  lowered : Nat
deriving DecidableEq, Repr

namespace Moved

/-- Between two readings of the counter. -/
def between (before after : UInt64) : Moved :=
  ⟨after.toNat - before.toNat, before.toNat - after.toNat⟩

def add (m m' : Moved) : Moved := ⟨m.raised + m'.raised, m.lowered + m'.lowered⟩

/-- What is left on the counter. -/
def left (m : Moved) : Nat := m.raised - m.lowered

theorem between_self (n : UInt64) : between n n = ⟨0, 0⟩ := by simp [between]

theorem between_succ {n : UInt64} (room : n.toNat + 1 < 2 ^ 64) : between n (n + 1) = ⟨1, 0⟩ := by
  rw [between, Ledger.toNat_succ room]
  simp

theorem between_pred {n : UInt64} (positive : 1 ≤ n.toNat) :
    between n (Ledger.saturatingPred n) = ⟨0, 1⟩ := by
  rw [between, Ledger.toNat_saturatingPred, Moved.mk.injEq]
  omega

end Moved

/-- How a call moves the counter of jobs in progress, by how it ends. -/
def CallEnd.moved : CallEnd → Moved
  | .returned .notClaimable => ⟨0, 0⟩
  | .returned .completed => ⟨1, 1⟩
  | .returned (.retrying _) => ⟨1, 1⟩
  | .returned .failed => ⟨1, 1⟩
  | .returned .aborted => ⟨1, 0⟩
  | .returned .reportRejected => ⟨1, 0⟩
  | .panicked => ⟨1, 0⟩

namespace Actor

/-- The end of a call, if the actor has just come to it. -/
def callEnd? : Actor → Option CallEnd
  | .handling (.done outcome) => some (.returned outcome)
  | .worker .died => some .panicked
  | _ => none

/-- Whether the actor is between a claim and the end of its call. -/
def isUnderway : Actor → Bool
  | .handling (.claiming _) => false
  | .handling (.done _) => false
  | .handling _ => true
  | _ => false

/-- How the call at hand has moved the counter so far. -/
def moved : Actor → Moved
  | .handling (.ready _) => ⟨1, 0⟩
  | .handling (.working _) => ⟨1, 0⟩
  | .handling (.reporting _ _) => ⟨1, 0⟩
  | .handling (.succeeded _) => ⟨1, 0⟩
  | .handling (.failed _ _) => ⟨1, 0⟩
  | .handling (.requeueing _) => ⟨1, 1⟩
  | _ => ⟨0, 0⟩

end Actor

/-! ## Watching a run -/

/-- Newcomers start at the beginning, and the counter of jobs in progress has room for one more.
Creations may store any job, also one under an id that is in use. -/
def Action.replacing (s : Scene) : Action → Bool
  | .enter a => a.isNewcomer
  | .act _ _ => s.ledger.inProgress.toNat + 1 < 2 ^ 64
  | .offer _ => true
  | .close => true

/-- A scene, and what has been noted on the way to it.

  * `calls` — how the actor at each position has moved the counter in the call at hand.
  * `ended` — how each call has ended, and how it had moved the counter. -/
structure Watched where
  scene : Scene
  calls : Nat → Moved
  ended : List (CallEnd × Moved)

namespace Watched

def of (p : Pipeline) : Watched := ⟨.of p, fun _ => ⟨0, 0⟩, []⟩

/-- What is noted once an action has led to a scene. -/
def note (w : Watched) (s : Scene) : Action → Watched
  | .act i _ =>
    let call := (w.calls i).add (.between w.scene.ledger.inProgress s.ledger.inProgress)
    match s.actors[i]?.bind Actor.callEnd? with
    | some callEnd => ⟨s, Function.update w.calls i ⟨0, 0⟩, w.ended ++ [(callEnd, call)]⟩
    | none => ⟨s, Function.update w.calls i call, w.ended⟩
  | _ => { w with scene := s }

/-- How many calls have ended in a way. -/
def count (w : Watched) (callEnd : CallEnd) : Nat := w.ended.countP fun c => c.1 = callEnd

/-- A run from shared parts with nobody at work, as it is watched. -/
inductive Run (p : Pipeline) : Watched → Prop
  | start : Run p (.of p)
  | step {w : Watched} {action : Action} {s : Scene} (run : Run p w)
      (allowed : action.replacing w.scene = true) (hstep : w.scene.step action = some s) :
      Run p (w.note s action)

def play : List Action → Watched → Option Watched
  | [], w => some w
  | action :: rest, w =>
    if action.replacing w.scene then
      (w.scene.step action).bind fun s => play rest (w.note s action)
    else none

theorem Run.play {p : Pipeline} {w w' : Watched} (run : Run p w) (as : List Action)
    (h : w.play as = some w') : Run p w' := by
  induction as generalizing w with
  | nil => cases h; exact run
  | cons action rest ih =>
    simp only [Watched.play] at h
    split at h
    · rename_i allowed
      obtain ⟨s, hstep, h⟩ := Option.bind_eq_some_iff.1 h
      exact ih (run.step allowed hstep) h
    · cases h

end Watched

/-! ## One operation -/

namespace Actor

/-- How an operation is noted, given the readings of the counter before and after it.

  * `call` — with it the call has moved the counter as its end says, or as far as it has come.
  * `even` — the counter has changed by what the call has. -/
structure Noted (a a' : Actor) (before after : UInt64) : Prop where
  call : a.moved.add (.between before after) = (a'.callEnd?.map CallEnd.moved).getD a'.moved
  even : after.toNat + a.moved.left = before.toNat + (a.moved.add (.between before after)).left

section
variable {a a' : Actor} {n : UInt64}

theorem Noted.same (call : a.moved = (a'.callEnd?.map CallEnd.moved).getD a'.moved) :
    Noted a a' n n := by
  have unmoved : a.moved.add (.between n n) = a.moved := by rw [Moved.between_self]; rfl
  exact ⟨unmoved.trans call, by rw [unmoved]⟩

theorem Noted.raise (room : n.toNat + 1 < 2 ^ 64) (before : a.moved = ⟨0, 0⟩)
    (call : (a'.callEnd?.map CallEnd.moved).getD a'.moved = ⟨1, 0⟩) : Noted a a' n (n + 1) := by
  have raised : a.moved.add (.between n (n + 1)) = ⟨1, 0⟩ := by
    rw [Moved.between_succ room, before]; rfl
  exact ⟨raised.trans call.symm, by rw [raised, before, Ledger.toNat_succ room]; rfl⟩

theorem Noted.lower (positive : a.moved.left ≤ n.toNat) (before : a.moved = ⟨1, 0⟩)
    (call : (a'.callEnd?.map CallEnd.moved).getD a'.moved = ⟨1, 1⟩) :
    Noted a a' n (Ledger.saturatingPred n) := by
  rw [before] at positive
  have positive : 1 ≤ n.toNat := positive
  have lowered : a.moved.add (.between n (Ledger.saturatingPred n)) = ⟨1, 1⟩ := by
    rw [Moved.between_pred positive, before]; rfl
  refine ⟨lowered.trans call.symm, ?_⟩
  rw [lowered, before, Ledger.toNat_saturatingPred]
  exact Nat.sub_add_cancel positive

end

theorem noted_answered (receipt : Receipt) (n : UInt64) {w : Worker}
    (idle : (worker w).moved = ⟨0, 0⟩) : Noted (.worker w) (.worker (.answered receipt)) n n := by
  refine .same (idle.trans ?_)
  cases receipt <;> rfl

/-- The report is where the ways part: if it is refused, the call ends with the counter raised. -/
theorem noted_of_proceeds {stopped : Bool} {h h' : Handling} {p p' : Pipeline}
    (proceeds : h.Proceeds stopped p h' p') (room : p.ledger.inProgress.toNat + 1 < 2 ^ 64)
    (positive : (handling h).moved.left ≤ p.ledger.inProgress.toNat) :
    Noted (handling h) (handling h') p.ledger.inProgress p'.ledger.inProgress := by
  cases proceeds with
  | count job => exact .raise room rfl rfl
  | report same found processing result => cases result <;> exact .same rfl
  | complete job => exact .lower positive rfl rfl
  | retry job => exact .lower positive rfl rfl
  | exhaust job => exact .lower positive rfl rfl
  | _ => exact .same rfl

theorem noted_of_moves {r : ReceiverId} {cue : Cue} {w w' : Worker} {p p' : Pipeline}
    (moves : w.Moves r cue p w' p') (room : p.ledger.inProgress.toNat + 1 < 2 ^ 64)
    (positive : (worker w).moved.left ≤ p.ledger.inProgress.toNat) :
    Noted (.worker w) (.worker w') p.ledger.inProgress p'.ledger.inProgress := by
  cases moves with
  | look => exact noted_answered _ _ rfl
  | serve => exact noted_answered _ _ rfl
  | handle proceeds => exact noted_of_proceeds proceeds room positive
  | _ => exact .same rfl

theorem noted_of_step {i : ReceiverId} {cue : Cue} {a a' : Actor} {p p' : Pipeline}
    (hs : a.step i cue p = some (a', p')) (room : p.ledger.inProgress.toNat + 1 < 2 ^ 64)
    (positive : a.moved.left ≤ p.ledger.inProgress.toNat) :
    Noted a a' p.ledger.inProgress p'.ledger.inProgress := by
  cases a with
  | worker w =>
    obtain ⟨⟨w', q⟩, hw, h⟩ := Option.map_eq_some_iff.1 hs
    cases h
    exact noted_of_moves (Worker.moves_of_step hw) room positive
  | sweep s =>
    obtain ⟨⟨s', q⟩, hw, h⟩ := Option.map_eq_some_iff.1 hs
    cases h
    obtain ⟨d, effect, does⟩ := sweep_does (Sweep.proceeds_of_step hw)
    have unmoved : p'.ledger.inProgress = p.ledger.inProgress := by
      cases does with
      | rest => rw [effect.2]
      | recover => rw [effect.2.2]
      | credit => rw [effect.2]; rfl
    rw [unmoved]
    exact .same rfl
  | creation c =>
    obtain ⟨⟨c', q⟩, hw, h⟩ := Option.map_eq_some_iff.1 hs
    cases h
    obtain ⟨d, effect, does⟩ := creation_does (Creation.proceeds_of_step hw)
    have unmoved : p'.ledger.inProgress = p.ledger.inProgress := by
      cases does with
      | rest => rw [effect.2]
      | create => rw [effect.2]
      | tellCreated => rw [effect.2]; rfl
    rw [unmoved]
    exact .same rfl

end Actor

/-! ## The whole run -/

namespace Watched

/-- What is true of all that has been noted.

  * `calls` — each call at hand has moved the counter as far as it has come.
  * `ended` — each call that has ended has moved it as its end says.
  * `even`  — the counter shows what the calls have left on it. -/
structure Kept (w : Watched) : Prop where
  calls : ∀ i, w.calls i = (w.scene.actors[i]?.map Actor.moved).getD ⟨0, 0⟩
  ended : ∀ c ∈ w.ended, c.2 = c.1.moved
  even : w.scene.ledger.inProgress.toNat =
    (w.scene.actors.map fun a => a.moved.left).sum + (w.ended.map fun c => c.1.moved.left).sum

variable {p : Pipeline} {w : Watched}

theorem Kept.of (clear : p.ledger.inProgress = 0) : (Watched.of p).Kept where
  calls _ := rfl
  ended := nofun
  even := by
    show p.ledger.inProgress.toNat = 0
    rw [clear]
    rfl

theorem Kept.enter (kept : w.Kept) {a : Actor} (new : a.isNewcomer = true) :
    Kept { w with scene := { w.scene with actors := w.scene.actors ++ [a] } } := by
  have unmoved : a.moved = ⟨0, 0⟩ := by
    rcases Actor.newcomer_cases new with rfl | ⟨id, rfl⟩ | rfl | ⟨job, rfl⟩ <;> rfl
  refine ⟨fun i => ?_, kept.ended, ?_⟩
  · rw [kept.calls i]
    rcases Nat.lt_trichotomy i w.scene.actors.length with old | here | beyond
    · rw [List.getElem?_append_left old]
    · rw [here, List.getElem?_concat_length, List.getElem?_eq_none (Nat.le_refl _)]
      exact unmoved.symm
    · rw [List.getElem?_eq_none (Nat.le_of_lt beyond), List.getElem?_eq_none]
      simpa using beyond
  · simp only [List.map_append, List.sum_append]
    rw [show (List.map (fun a => a.moved.left) [a]).sum = 0 by simp [unmoved, Moved.left]]
    exact kept.even

/-- An actor that ends its call has nothing on its own account any more. -/
theorem moved_of_callEnd {a : Actor} {callEnd : CallEnd} (ends : a.callEnd? = some callEnd) :
    a.moved = ⟨0, 0⟩ := by
  unfold Actor.callEnd? at ends
  split at ends
  · rfl
  · rfl
  · cases ends

theorem Kept.act (kept : w.Kept) (room : w.scene.ledger.inProgress.toNat + 1 < 2 ^ 64) {i : Nat}
    {cue : Cue} {a a' : Actor} {q : Pipeline} (here : w.scene.actors[i]? = some a)
    (hs : a.step i cue w.scene.pipeline = some (a', q)) :
    (w.note ⟨q, w.scene.actors.set i a'⟩ (.act i cue)).Kept := by
  have own : w.calls i = a.moved := by rw [kept.calls i, here]; rfl
  have counted := sum_map_set (fun a => a.moved.left) here a'
  have positive : a.moved.left ≤ w.scene.ledger.inProgress.toNat := by
    have := List.le_sum_of_mem
      (List.mem_map_of_mem (f := fun a => a.moved.left) (List.mem_of_getElem? here))
    have := kept.even
    omega
  obtain ⟨call, even⟩ := Actor.noted_of_step hs room positive
  have there : (w.scene.actors.set i a')[i]? = some a' := by
    rw [List.getElem?_set_self (List.getElem?_eq_some_iff.1 here).1]
  have calls (m : Moved) (hm : m = a'.moved) (j : Nat) : Function.update w.calls i m j =
      ((w.scene.actors.set i a')[j]?.map Actor.moved).getD ⟨0, 0⟩ := by
    by_cases same : j = i
    · rw [same, Function.update_self, there, hm]
      rfl
    · rw [Function.update_of_ne same, List.getElem?_set_ne (Ne.symm same)]
      exact kept.calls j
  have shown := kept.even
  simp only [note, there, Option.bind_some, own]
  cases ends : a'.callEnd? with
  | none =>
    rw [ends] at call
    have call : a.moved.add (.between w.scene.ledger.inProgress q.ledger.inProgress) = a'.moved :=
      call
    refine ⟨calls _ call, kept.ended, ?_⟩
    rw [call] at even
    simp only [Scene.ledger] at *
    omega
  | some callEnd =>
    rw [ends] at call
    have call : a.moved.add (.between w.scene.ledger.inProgress q.ledger.inProgress) =
        callEnd.moved := call
    have settled := moved_of_callEnd ends
    refine ⟨calls _ settled.symm, ?_, ?_⟩
    · intro c hc
      rcases List.mem_append.1 hc with earlier | now
      · exact kept.ended c earlier
      · rw [List.mem_singleton.1 now]
        exact call
    · rw [call] at even
      have none_left : a'.moved.left = 0 := by rw [settled]; rfl
      rw [List.map_append, List.sum_append, List.map_singleton, List.sum_singleton]
      simp only [Scene.ledger] at *
      omega

theorem Run.kept (clear : p.ledger.inProgress = 0) (run : Run p w) : w.Kept := by
  induction run with
  | start => exact .of clear
  | @step w action s run allowed hstep kept =>
    cases action with
    | enter a => cases hstep; exact kept.enter allowed
    | offer id => cases hstep; exact ⟨kept.calls, kept.ended, kept.even⟩
    | close => cases hstep; exact ⟨kept.calls, kept.ended, kept.even⟩
    | act i cue =>
      obtain ⟨a, a', q, here, hs, rfl⟩ := Scene.step_act_iff.1 hstep
      exact kept.act (of_decide_eq_true allowed) here hs

/-! ## What the counter shows -/

/-- Nobody is between a claim and the end of the call. -/
def Idle (w : Watched) : Prop := ∀ a ∈ w.scene.actors, a.isUnderway = false

instance (w : Watched) : Decidable w.Idle := inferInstanceAs (Decidable (∀ a ∈ _, _))

theorem moved_of_not_underway {a : Actor} (idle : a.isUnderway = false) : a.moved = ⟨0, 0⟩ := by
  unfold Actor.isUnderway at idle
  split at idle
  · rfl
  · rfl
  · cases idle
  · rename_i busy
    cases a with
    | worker w =>
      cases w with
      | handling h => exact absurd rfl (busy h)
      | _ => rfl
    | _ => rfl

/-- Three ends leave the counter raised. -/
theorem left_of_callEnd (callEnd : CallEnd) :
    callEnd.moved.left = (if callEnd = .returned .aborted then 1 else 0) +
      (if callEnd = .returned .reportRejected then 1 else 0) +
      (if callEnd = .panicked then 1 else 0) := by
  cases callEnd with
  | returned outcome => cases outcome <;> rfl
  | panicked => rfl

theorem sum_left (ended : List (CallEnd × Moved)) :
    (ended.map fun c => c.1.moved.left).sum =
      ended.countP (fun c => c.1 = .returned .aborted) +
        ended.countP (fun c => c.1 = .returned .reportRejected) +
        ended.countP fun c => c.1 = .panicked := by
  induction ended with
  | nil => rfl
  | cons c rest ih =>
    rw [List.map_cons, List.sum_cons, ih, left_of_callEnd]
    simp only [List.countP_cons, decide_eq_true_eq]
    omega

/-- The number of calls that have raised the counter and not lowered it. -/
theorem sum_moved_left (as : List Actor) :
    (as.map fun a => a.moved.left).sum = as.countP fun a => a.moved = ⟨1, 0⟩ := by
  induction as with
  | nil => rfl
  | cons a rest ih =>
    have own : a.moved.left = if a.moved = ⟨1, 0⟩ then 1 else 0 := by
      unfold Actor.moved
      split <;> rfl
    rw [List.map_cons, List.sum_cons, ih, own]
    simp only [List.countP_cons, decide_eq_true_eq]
    omega

end Watched

/-- **The counter of jobs in progress shows what was never reported.** Jobs may be replaced at any
time. A call that completes its job, or has its failure accepted, lowers the counter once for the
once that it has raised it. Of the others that have claimed a job the counter tells for ever: it is
the number of calls that were aborted exactly if no report has been refused and no workload has
panicked. -/
theorem inProgress_shows_unreported {p : Pipeline} {w : Watched} (clear : p.ledger.inProgress = 0)
    (run : Watched.Run p w) :
    (∀ c ∈ w.ended, c.2 = c.1.moved) ∧
      w.scene.ledger.inProgress.toNat = (w.scene.actors.countP fun a => a.moved = ⟨1, 0⟩) +
        (w.count (.returned .aborted) + w.count (.returned .reportRejected) + w.count .panicked) ∧
      (w.Idle → w.scene.ledger.inProgress.toNat =
        w.count (.returned .aborted) + w.count (.returned .reportRejected) + w.count .panicked) ∧
      (w.Idle → (w.scene.ledger.inProgress.toNat = w.count (.returned .aborted) ↔
        w.count (.returned .reportRejected) = 0 ∧ w.count .panicked = 0)) := by
  obtain ⟨-, ended, even⟩ := run.kept clear
  rw [Watched.sum_left, Watched.sum_moved_left] at even
  have idle (idle : w.Idle) : (w.scene.actors.countP fun a => a.moved = ⟨1, 0⟩) = 0 := by
    refine List.countP_eq_zero.2 fun a ha => ?_
    rw [Watched.moved_of_not_underway (idle a ha)]
    decide
  refine ⟨ended, even, fun quiet => ?_, fun quiet => ?_⟩
  · rw [idle quiet, Nat.zero_add] at even
    exact even
  · rw [idle quiet, Nat.zero_add] at even
    rw [even]
    simp only [Watched.count]
    omega

/-- A job is created and claimed. While it is being executed, a job of the same id replaces it, and
the report is refused. -/
def replacedAtWork : List Action :=
  let job : Job := ⟨⟨"a"⟩, "email_send", .pending, [], 0, 3, none, ⟨0, 0⟩⟩
  [.enter (.creation (.storing job)), .go 0, .go 0, .go 0,
    .enter (.handling (.claiming ⟨"a"⟩)), .go 1, .go 1, .go 1,
    .enter (.creation (.storing job)), .go 2, .go 2, .go 2,
    .go 1, .go 1, .go 1]

/-- The worker that comes next is stopped. Both calls stay on the counter. -/
theorem inProgress_after_refusal_and_abort :
    ∃ w, Watched.Run (.empty 4) w ∧ w.Idle ∧ w.scene.ledger.inProgress.toNat = 2 ∧
      w.count (.returned .aborted) = 1 ∧
      w.scene.ledger.inProgress.toNat ≠ w.count (.returned .aborted) := by
  let actions : List Action := replacedAtWork ++
    [.enter (.handling (.claiming ⟨"a"⟩)), .go 3, .go 3, .act 3 ⟨true, .panic⟩]
  obtain ⟨w, run, idle, aborted, rejected, panicked⟩ : ∃ w, Watched.Run (.empty 4) w ∧ w.Idle ∧
      w.count (.returned .aborted) = 1 ∧ w.count (.returned .reportRejected) = 1 ∧
      w.count .panicked = 0 :=
    ⟨_, Watched.Run.start.play actions rfl, of_decide_eq_true rfl, rfl, rfl, rfl⟩
  obtain ⟨-, -, shows, exactly⟩ := inProgress_shows_unreported rfl run
  refine ⟨w, run, idle, ?_, aborted, fun same => ?_⟩
  · rw [shows idle, aborted, rejected, panicked]
  · have none_rejected := ((exactly idle).1 same).1
    rw [rejected] at none_rejected
    cases none_rejected

/-- Nobody is at work, no call was aborted and no job is processing, and the counter is not at
zero. -/
theorem inProgress_after_refused_report :
    ∃ w, Watched.Run (.empty 4) w ∧ w.Idle ∧ w.count (.returned .aborted) = 0 ∧
      w.ended = [(.returned .reportRejected, ⟨1, 0⟩)] ∧ w.scene.store.count .processing = 0 ∧
      w.scene.ledger.inProgress = 1 :=
  ⟨_, Watched.Run.start.play replacedAtWork rfl, of_decide_eq_true rfl, rfl, rfl, rfl, rfl⟩

end JobPipeline
