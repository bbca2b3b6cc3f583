import JobPipeline.Proofs.Job.Changes
import JobPipeline.Service.Creation
import JobPipeline.Sweeper.Sweep
import JobPipeline.Worker.Task
import Mathlib

/-!
# Actors in any order

A `Scene` is the shared parts and everybody at work on them: workers, sweeps and creations.
`Scene.step` performs one `Action`: one operation of one actor, or something that comes from
outside. Nothing is said about time or turns, so the runs of a scene (`Scene.Reaches`) are all
interleavings of its actors.

What the environment decides is in the `Cue` of an operation: whether the stop signal of the actor
has fired, and how its workload ends. Which actions may happen at all is a parameter of a run.
`Action.lawful` is the weakest such condition: newcomers start at the beginning, and a creation
stores a new record under an id that is not in use.
-/

namespace JobPipeline

/-- What an actor's next operation depends on besides the shared parts. -/
structure Cue where
  /-- Whether the stop signal of the actor has fired. -/
  stopped : Bool
  /-- How its workload ends, if it is at one. -/
  ending : Ending
deriving DecidableEq, Repr

namespace Worker

/-- Where a worker stands after the answer of the queue. -/
def answered : Receipt → Worker
  | .taken id => .handling (.claiming id)
  | .waiting => .waiting
  | .ended => .stopped

def look (r : ReceiverId) (p : Pipeline) : Worker × Pipeline :=
  (answered (p.queue.receive r).1, { p with queue := (p.queue.receive r).2 })

/-- The next operation of the worker that is the receiver `r` at the queue. -/
def step (r : ReceiverId) (cue : Cue) : Worker → Pipeline → Option (Worker × Pipeline)
  | .looking, p => some (if cue.stopped then (.stopped, p) else look r p)
  | .waiting, p =>
    if cue.stopped then some (.stopped, { p with queue := p.queue.abandon r })
    else if p.queue.canServe r then some (look r p)
    else none
  | .handling (.working job), p =>
    if cue.stopped then some (.handling (.done .aborted), p)
    else match cue.ending with
      | .result result => some (.handling ((Handling.working job).finish result), p)
      | .panic => some (.died, p)
  | .handling (.done outcome), p => some (if outcome = .aborted then .stopped else .looking, p)
  | .handling h, p => (h.step cue.stopped p).map fun (h, p) => (.handling h, p)
  | .stopped, _ => none
  | .died, _ => none

end Worker

/-- Somebody at work on the shared parts. -/
inductive Actor
  | worker (w : Worker)
  | sweep (s : Sweep)
  | creation (c : Creation)

namespace Actor

@[match_pattern] abbrev handling (h : Handling) : Actor := .worker (.handling h)

/-- The next operation of the actor at position `r`. -/
def step (r : ReceiverId) (cue : Cue) : Actor → Pipeline → Option (Actor × Pipeline)
  | .worker w, p => (w.step r cue p).map fun (w, p) => (.worker w, p)
  | .sweep s, p => (s.step cue.stopped p).map fun (s, p) => (.sweep s, p)
  | .creation c, p => (c.step cue.stopped p).map fun (c, p) => (.creation c, p)

/-- Whether the actor has done nothing yet. A worker may start with an id in its hands, wherever it
has it from. -/
def isNewcomer : Actor → Bool
  | .worker .looking => true
  | .handling (.claiming _) => true
  | .sweep .recovering => true
  | .creation (.storing _) => true
  | _ => false

theorem newcomer_cases {a : Actor} (h : a.isNewcomer = true) :
    a = .worker .looking ∨ (∃ id, a = handling (.claiming id)) ∨ a = .sweep .recovering ∨
      ∃ job, a = .creation (.storing job) := by
  unfold isNewcomer at h
  split at h
  · exact .inl rfl
  · exact .inr (.inl ⟨_, rfl⟩)
  · exact .inr (.inr (.inl rfl))
  · exact .inr (.inr (.inr ⟨_, rfl⟩))
  · cases h

end Actor

/-- The shared parts and everybody at work on them. -/
structure Scene where
  pipeline : Pipeline
  actors : List Actor

inductive Action
  | enter (a : Actor)
  /-- The actor at a position does its next operation. -/
  | act (i : Nat) (cue : Cue)
  | offer (id : JobId)
  /-- Somebody closes the queue. -/
  | close

/-- Who changes alone changes a sum over all by himself only. -/
theorem sum_map_set {α M : Type} [AddCommMonoid M] (f : α → M) {as : List α} {i : Nat} {a : α}
    (h : as[i]? = some a) (b : α) : ((as.set i b).map f).sum + f a = (as.map f).sum + f b := by
  induction as generalizing i with
  | nil => cases h
  | cons x xs ih =>
    cases i with
    | zero =>
      obtain rfl : x = a := by simpa using h
      rw [List.set_cons_zero, List.map_cons, List.map_cons, List.sum_cons, List.sum_cons, add_comm,
        add_assoc, add_comm (f b)]
    | succ i =>
      have := ih (i := i) (by simpa using h)
      rw [List.set_cons_succ, List.map_cons, List.map_cons, List.sum_cons, List.sum_cons, add_assoc,
        this, add_assoc]

/-- Where one item of a list has been replaced, it is the new one that stands there. -/
theorem getElem?_set_cases {α : Type} {as : List α} {i j : Nat} {a b : α}
    (h : (as.set i a)[j]? = some b) : (j = i ∧ b = a) ∨ (j ≠ i ∧ as[j]? = some b) := by
  by_cases hji : j = i
  · subst hji
    obtain ⟨hlt, hb⟩ := List.getElem?_eq_some_iff.1 h
    rw [List.getElem_set_self] at hb
    exact .inl ⟨rfl, hb.symm⟩
  · rw [List.getElem?_set_ne (Ne.symm hji)] at h
    exact .inr ⟨hji, h⟩

theorem getElem?_concat_cases {α : Type} {as : List α} {i : Nat} {a b : α}
    (h : (as ++ [a])[i]? = some b) : as[i]? = some b ∨ b = a := by
  rw [List.getElem?_append] at h
  split at h
  · exact .inl h
  · exact .inr (List.mem_singleton.1 (List.mem_of_getElem? h))

/-- The next operation of an actor that nothing stops and whose workload succeeds. -/
abbrev Action.go (i : Nat) : Action := .act i ⟨false, .result .success⟩

namespace Scene

abbrev store (s : Scene) : Store := s.pipeline.store

abbrev queue (s : Scene) : Queue := s.pipeline.queue

abbrev ledger (s : Scene) : Ledger := s.pipeline.ledger

def of (p : Pipeline) : Scene := ⟨p, []⟩

/-- The scene after an action, if the action is possible. -/
def step (s : Scene) : Action → Option Scene
  | .enter a => some { s with actors := s.actors ++ [a] }
  | .act i cue => do
    let a ← s.actors[i]?
    let (a, p) ← a.step i cue s.pipeline
    return ⟨p, s.actors.set i a⟩
  | .offer id => some { s with pipeline := (s.pipeline.offer id).2 }
  | .close => some { s with pipeline := { s.pipeline with queue := s.queue.close } }

def Moves (allowed : Scene → Action → Bool) (s s' : Scene) : Prop :=
  ∃ a, allowed s a = true ∧ s.step a = some s'

/-- A run of allowed actions, of any length and in any order. -/
def Reaches (allowed : Scene → Action → Bool) : Scene → Scene → Prop :=
  Relation.ReflTransGen (Moves allowed)

/-- The end of a given run, if all its actions are allowed and possible. -/
def play (allowed : Scene → Action → Bool) : List Action → Scene → Option Scene
  | [], s => some s
  | a :: as, s => if allowed s a then (s.step a).bind (play allowed as) else none

theorem reaches_of_play {allowed : Scene → Action → Bool} (as : List Action) {s s' : Scene}
    (h : s.play allowed as = some s') : s.Reaches allowed s' := by
  induction as generalizing s with
  | nil => cases h; exact .refl
  | cons a as ih =>
    simp only [play] at h
    split at h
    · rename_i ha
      obtain ⟨t, ht, h⟩ := Option.bind_eq_some_iff.1 h
      exact .head ⟨a, ha, ht⟩ (ih h)
    · cases h

theorem Reaches.mono {allowed allowed' : Scene → Action → Bool}
    (h : ∀ s a, allowed s a = true → allowed' s a = true) {s s' : Scene}
    (run : s.Reaches allowed s') :
    s.Reaches allowed' s' := by
  induction run with
  | refl => exact .refl
  | tail _ move ih =>
    obtain ⟨a, ha, hs⟩ := move
    exact ih.tail ⟨a, h _ a ha, hs⟩

/-- What holds at the start and is kept by every allowed action holds at the end. -/
theorem Reaches.invariant {allowed : Scene → Action → Bool} {I : Scene → Prop}
    (keep : ∀ s a s', I s → allowed s a = true → s.step a = some s' → I s') {s s' : Scene}
    (run : s.Reaches allowed s') (start : I s) : I s' := by
  induction run with
  | refl => exact start
  | tail _ move ih =>
    obtain ⟨a, ha, hs⟩ := move
    exact keep _ a _ ih ha hs

/-- An actor's operation replaces that actor and nobody else. -/
theorem step_act_iff {s s' : Scene} {i : Nat} {cue : Cue} :
    s.step (.act i cue) = some s' ↔
      ∃ a a' p, s.actors[i]? = some a ∧ a.step i cue s.pipeline = some (a', p) ∧
        s' = ⟨p, s.actors.set i a'⟩ := by
  simp only [step, Option.bind_eq_bind, Option.bind_eq_some_iff, Option.pure_def, Option.some.injEq,
    Prod.exists]
  constructor
  · rintro ⟨a, ha, a', p, hs, rfl⟩; exact ⟨a, a', p, ha, hs, rfl⟩
  · rintro ⟨a, a', p, ha, hs, rfl⟩; exact ⟨a, ha, a', p, hs, rfl⟩

end Scene

/-- What is asked of any environment: newcomers start at the beginning, and what a creation stores
is new, under an id that is not in use. -/
def Action.lawful (s : Scene) : Action → Bool
  | .enter a => a.isNewcomer
  | .act i _ => match s.actors[i]? with
    | some (.creation (.storing job)) => job.isNew && (s.store.get? job.id).isNone
    | _ => true
  | .offer _ => true
  | .close => true

end JobPipeline
