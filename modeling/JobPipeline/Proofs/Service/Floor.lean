import JobPipeline.Proofs.Service.Tending

/-!
# The workers and their surroundings

A `Floor` is the workers of a service and the shared parts, and nothing of tokens, time and calls.
In `Floor.Moves` either a worker goes on that nothing stops, or somebody else stirs the shared
parts.

From a claim to its report a job is in the hands of a worker (`Moves.released`). Once the queue is
closed and creations are refused, a buffered job goes one way only: it waits, is worked on, and is
reported (`Waiting.step`, `Working.step`). `Floor.Clearing` keeps the books of that for all ids that
were buffered when the queue was closed.
-/

namespace JobPipeline

namespace Store

/-- The state of the job with the given id. -/
def status? (s : Store) (id : JobId) : Option Status := (s.get? id).map Job.status

theorem status?_eq_some_iff {s : Store} {id : JobId} {status : Status} :
    s.status? id = some status ↔ ∃ job, s.get? id = some job ∧ job.status = status := by
  simp [status?]

theorem status?_set_of_ne {s : Store} {id id' : JobId} {new : Job} (hnew : new.id = id)
    (h : id' ≠ id) : (s.set id new).status? id' = s.status? id' := by
  rw [status?, get?_set_of_ne hnew h, status?]

/-- A sweep does nothing to a job that has not failed. -/
theorem status?_swept {s : Store} {id : JobId} {status : Status} (h : s.status? id = some status)
    (notFailed : status ≠ .failed) : s.swept.status? id = some status := by
  obtain ⟨job, hget, rfl⟩ := status?_eq_some_iff.1 h
  have hlapsed : job.lapsed = false := by simp [Job.lapsed, notFailed]
  rw [status?, get?_swept, hget, Option.map_some, Job.swept_of_not_lapsed hlapsed, Option.map_some]

end Store

namespace Worker

variable {ok : WorkResult → Prop} {s s' : Store} {w w' : Worker} {id : JobId}

namespace Writes

theorem ids (writes : w.Writes ok s w' s') : s'.ids = s.ids := by
  cases writes with
  | @claim old => exact Store.ids_set (Job.id_started old)
  | @report _ old r => exact Store.ids_set (Job.id_reported r old)
  | nothing => rfl

/-- A job stays in its state unless the worker claims it or reports it. -/
theorem status? (writes : w.Writes ok s w' s') {status : Status}
    (h : s.status? id = some status) :
    s'.status? id = some status ∨ (status = .pending ∧ w = .handling (.claiming id)) ∨
      (status = .processing ∧ ∃ (job : Job) (r : WorkResult),
        ok r ∧ s'.get? id = some (job.reported r)) := by
  cases writes with
  | @claim old found pending =>
    by_cases hid : id = old.id
    · subst hid
      rw [Store.status?, found, Option.map_some, pending] at h
      exact .inr (.inl ⟨(Option.some.inj h).symm, rfl⟩)
    · rw [Store.status?_set_of_ne (Job.id_started old) hid]; exact .inl h
  | @report _ old r _ same found processing right =>
    by_cases hid : id = old.id
    · subst hid
      rw [Store.status?, found, Option.map_some, processing] at h
      exact .inr (.inr ⟨(Option.some.inj h).symm, old, r, right,
        Store.get?_set_self (Job.id_reported r old) found⟩)
    · rw [Store.status?_set_of_ne (Job.id_reported r old) hid]; exact .inl h
  | nothing => exact .inl h

end Writes

/-- A worker that has been handed the id of a pending job claims it. -/
theorem Tends.claims {p p' : Pipeline} {old : Job}
    (tends : (Worker.handling (.claiming id)).Tends ok p w' p')
    (hget : p.store.get? id = some old) (pending : old.status = .pending) :
    old.id = id ∧ w' = .handling (.claimed old.started) ∧
      p'.store.get? id = some old.started := by
  cases tends with
  | take free => rcases free with h | h <;> cases h
  | wait free => rcases free with h | h <;> cases h
  | retire free => rcases free with h | h <;> cases h
  | conclude at_work => rcases at_work with h | h <;> cases h
  | handle proceeds =>
    cases proceeds with
    | @claim old' found =>
      obtain rfl := Option.some.inj (hget.symm.trans found)
      exact ⟨rfl, rfl, Store.get?_set_self (Job.id_started old) found⟩
    | skip unclaimable => exact absurd pending (unclaimable old hget)

end Worker

/-- Once creations are refused nobody but a worker touches a job that has not failed. -/
theorem Pipeline.Stirs.status? {p p' : Pipeline} (stirs : p.Stirs true p') {id : JobId}
    {status : Status} (h : p.store.status? id = some status) (notFailed : status ≠ .failed) :
    p'.store.status? id = some status := by
  rcases stirs.store with hs | hs <;> rw [hs]
  · exact h
  · exact Store.status?_swept h notFailed

/-- The workers of a service and the shared parts. -/
structure Floor where
  workers : List Worker
  pipeline : Pipeline

namespace Floor

abbrev store (f : Floor) : Store := f.pipeline.store

abbrev queue (f : Floor) : Queue := f.pipeline.queue

/-- A worker goes on, or somebody else stirs the shared parts. -/
inductive Moves (ok : WorkResult → Prop) (refused : Bool) (f : Floor) : Stage.Log → Floor → Prop
  | tend {i : Nat} {w w' : Worker} {p' : Pipeline} (seat : f.workers[i]? = some w)
      (tends : w.Tends ok f.pipeline w' p') :
      f.Moves ok refused [(i, w')] ⟨f.workers.set i w', p'⟩
  | stir {p' : Pipeline} (stirs : f.pipeline.Stirs refused p') :
      f.Moves ok refused [] ⟨f.workers, p'⟩

/-- Some worker has claimed the job and not reported it. -/
def Holds (f : Floor) (id : JobId) : Prop := ∃ w ∈ f.workers, w.Holds id

/-- The job is pending, and its id is buffered or has just been handed out. -/
def Waiting (f : Floor) (id : JobId) : Prop :=
  f.store.status? id = some .pending ∧
    (id ∈ f.queue.buffer ∨ .handling (.claiming id) ∈ f.workers)

/-- The job is processing, in the hands of a worker. -/
def Working (f : Floor) (id : JobId) : Prop :=
  f.store.status? id = some .processing ∧ f.Holds id

/-- All workers have gone home. -/
def Deserted (f : Floor) : Prop := ∀ w ∈ f.workers, w = .stopped

theorem Deserted.not_holds {f : Floor} (deserted : f.Deserted) (id : JobId) : ¬ f.Holds id := by
  rintro ⟨w, hw, job, hjob, -⟩
  rw [deserted w hw] at hjob
  cases hjob

variable {ok : WorkResult → Prop} {refused : Bool} {f f' : Floor} {news log : Stage.Log}
  {id : JobId}

/-- Another worker that holds the job still does. -/
theorem holds_set {i : Nat} {w : Worker} (seat : f.workers[i]? = some w) (holds : f.Holds id)
    (free : ¬ w.Holds id) (w' : Worker) (p' : Pipeline) :
    Holds ⟨f.workers.set i w', p'⟩ id := by
  obtain ⟨v, hv, hold⟩ := holds
  exact ⟨v, mem_set_of_ne seat hv (fun h => free (h ▸ hold)) w', hold⟩

theorem holds_of_claimed {i : Nat} {w : Worker} (h : id ∈ Stage.claimed [(i, w)]) : w.Holds id := by
  obtain ⟨i', job, hmem, hid⟩ := Stage.mem_claimed.1 h
  cases List.mem_singleton.1 hmem
  exact ⟨job, rfl, hid⟩

/-- **From its claim to its report a job is in the hands of a worker.** -/
theorem Moves.released {mine : JobId → Prop} (moves : f.Moves ok refused news f')
    (held : ∀ id, mine id → f.store.status? id = some .processing → f.Holds id) (id : JobId)
    (claimed : mine id ∨ id ∈ Stage.claimed news)
    (processing : f'.store.status? id = some .processing) : f'.Holds id := by
  obtain ⟨job', hget', hstatus⟩ := Store.status?_eq_some_iff.1 processing
  cases moves with
  | @tend i w w' p' seat tends =>
    rcases tends.released hget' hstatus with hnew | ⟨hfree, hget⟩
    · exact ⟨w', mem_set_self seat w', hnew⟩
    · rcases claimed with hmine | hnow
      · have hold := held id hmine (Store.status?_eq_some_iff.2 ⟨job', hget, hstatus⟩)
        exact holds_set seat hold hfree w' p'
      · exact ⟨w', mem_set_self seat w', holds_of_claimed hnow⟩
  | stir stirs =>
    rcases claimed with hmine | hnow
    · exact held id hmine
        (Store.status?_eq_some_iff.2 ⟨job', stirs.released hget' hstatus, hstatus⟩)
    · cases hnow

theorem Moves.length (moves : f.Moves ok refused news f') :
    f'.workers.length = f.workers.length := by
  cases moves with
  | tend => exact List.length_set
  | stir => rfl

/-- Once creations are refused no id comes in, and none ever goes. -/
theorem Moves.ids (moves : f.Moves ok true news f') : f'.store.ids = f.store.ids := by
  cases moves with
  | tend _ tends => exact tends.writes.ids
  | stir stirs =>
    rcases stirs.store with h | h
    · exact congrArg Store.ids h
    · exact (congrArg Store.ids h).trans (Store.ids_swept _)

/-! ## The way of a buffered job -/

/-- A waiting job goes on waiting until a worker claims it. -/
theorem Waiting.step (h : f.Waiting id) (closed : f.queue.isOpen = false)
    (moves : f.Moves ok true news f') :
    f'.Waiting id ∨ (id ∈ Stage.claimed news ∧ f'.Working id) := by
  obtain ⟨pending, somewhere⟩ := h
  cases moves with
  | stir stirs =>
    have hbuffer := (stirs.queue closed).1
    exact .inl ⟨stirs.status? pending nofun, by rwa [← hbuffer] at somewhere⟩
  | @tend i w w' p' seat tends =>
    by_cases hclaiming : w = .handling (.claiming id)
    · subst hclaiming
      obtain ⟨job, hget, hstatus⟩ := Store.status?_eq_some_iff.1 pending
      obtain ⟨rfl, rfl, hnew⟩ := tends.claims hget hstatus
      refine .inr ⟨Stage.mem_claimed.2 ⟨i, _, List.mem_singleton_self _, rfl⟩, ?_, ?_⟩
      · exact Store.status?_eq_some_iff.2 ⟨_, hnew, rfl⟩
      · exact ⟨_, mem_set_self seat _, job.started, rfl, rfl⟩
    · have pending' : p'.store.status? id = some .pending := by
        rcases tends.writes.status? pending with h | ⟨-, h⟩ | ⟨h, -⟩
        · exact h
        · exact absurd h hclaiming
        · cases h
      refine .inl ⟨pending', ?_⟩
      obtain ⟨-, ⟨id', rfl, hbuffer⟩ | ⟨-, hbuffer⟩⟩ := tends.queue closed
      · rcases somewhere with hmem | hmem
        · rw [hbuffer] at hmem
          rcases List.mem_cons.1 hmem with rfl | hmem
          · exact .inr (mem_set_self seat _)
          · exact .inl hmem
        · exact .inr (mem_set_of_ne seat hmem (Ne.symm hclaiming) _)
      · rcases somewhere with hmem | hmem
        · exact .inl (by rw [hbuffer]; exact hmem)
        · exact .inr (mem_set_of_ne seat hmem (Ne.symm hclaiming) _)

/-- A job that is worked on goes on so until somebody reports it. -/
theorem Working.step (h : f.Working id) (moves : f.Moves ok true news f') :
    f'.Working id ∨ ∃ (job : Job) (r : WorkResult),
      ok r ∧ f'.store.get? id = some (job.reported r) := by
  obtain ⟨processing, hold⟩ := h
  cases moves with
  | stir stirs => exact .inl ⟨stirs.status? processing nofun, hold⟩
  | @tend i w w' p' seat tends =>
    rcases tends.writes.status? processing with hstill | ⟨h, -⟩ | ⟨-, hreported⟩
    · obtain ⟨job, hget, hstatus⟩ := Store.status?_eq_some_iff.1 hstill
      refine .inl ⟨hstill, ?_⟩
      rcases tends.released hget hstatus with hnew | ⟨hfree, -⟩
      · exact ⟨w', mem_set_self seat w', hnew⟩
      · exact holds_set seat hold hfree w' p'
    · cases h
    · exact .inr hreported

/-- A completed job stays so. -/
theorem Moves.completed (moves : f.Moves ok true news f')
    (completed : f.store.status? id = some .completed) :
    f'.store.status? id = some .completed := by
  cases moves with
  | stir stirs => exact stirs.status? completed nofun
  | tend _ tends =>
    rcases tends.writes.status? completed with h | ⟨h, -⟩ | ⟨h, -⟩
    · exact h
    · cases h
    · cases h

/-- What has become of the ids that were buffered when the queue was closed.

  * `closed`    — nobody has opened the queue.
  * `handed`    — the ids have gone to the workers one by one, in order, and the rest is still
    there.
  * `claimed`   — a job that was pending has been claimed since, or still waits.
  * `completed` — where workloads only succeed, a job that waited or was in hand is completed, or
    is still on the way. -/
structure Clearing (ok : WorkResult → Prop) (origin : Floor) (log : Stage.Log) (f : Floor) :
    Prop where
  closed : f.queue.isOpen = false
  handed : (Stage.handed log).map Prod.snd ++ f.queue.buffer = origin.queue.buffer
  claimed : ∀ id, origin.Waiting id → id ∈ Stage.claimed log ∨ f.Waiting id
  completed : (∀ r, ok r → r = .success) → ∀ id, origin.Waiting id ∨ origin.Working id →
    f.Waiting id ∨ f.Working id ∨ f.store.status? id = some .completed

namespace Clearing

variable {origin : Floor}

theorem refl (closed : origin.queue.isOpen = false) : Clearing ok origin [] origin where
  closed := closed
  handed := rfl
  claimed _ waiting := .inr waiting
  completed _ _ due := due.elim .inl fun working => .inr (.inl working)

theorem step (h : Clearing ok origin log f) (moves : f.Moves ok true news f') :
    Clearing ok origin (log ++ news) f' := by
  refine ⟨?_, ?_, ?_, ?_⟩
  · -- closed
    cases moves with
    | tend _ tends => exact (tends.queue h.closed).1
    | stir stirs => exact (stirs.queue h.closed).2.trans h.closed
  · -- handed
    rw [Stage.handed_append, List.map_append, List.append_assoc, ← h.handed]
    congr 1
    cases moves with
    | tend _ tends =>
      obtain ⟨-, ⟨id, rfl, hbuffer⟩ | ⟨hne, hbuffer⟩⟩ := tends.queue h.closed
      · rw [hbuffer]; rfl
      · rw [Stage.handed_singleton_of_ne hne, hbuffer]; rfl
    | stir stirs => exact (stirs.queue h.closed).1
  · -- claimed
    intro id waiting
    rw [Stage.claimed_append, List.mem_append]
    rcases h.claimed id waiting with hclaimed | still
    · exact .inl (.inl hclaimed)
    · rcases still.step h.closed moves with still | ⟨hclaimed, -⟩
      · exact .inr still
      · exact .inl (.inr hclaimed)
  · -- completed
    intro success id due
    rcases h.completed success id due with waiting | working | completed
    · rcases waiting.step h.closed moves with waiting | ⟨-, working⟩
      · exact .inl waiting
      · exact .inr (.inl working)
    · rcases working.step moves with working | ⟨job, r, right, hget⟩
      · exact .inr (.inl working)
      · obtain rfl := success r right
        exact .inr (.inr (Store.status?_eq_some_iff.2 ⟨_, hget, rfl⟩))
    · exact .inr (.inr (moves.completed completed))

/-- When all workers have gone home and nothing is buffered, nothing is on the way. -/
theorem of_deserted (h : Clearing ok origin log f) (deserted : f.Deserted)
    (empty : f.queue.buffer = []) :
    (Stage.handed log).map Prod.snd = origin.queue.buffer ∧
      (∀ id, origin.Waiting id → id ∈ Stage.claimed log) ∧
      ((∀ r, ok r → r = .success) → ∀ id, origin.Waiting id ∨ origin.Working id →
        f.store.status? id = some .completed) := by
  have nobody (id : JobId) : ¬ f.Waiting id := by
    rintro ⟨-, hmem | hmem⟩
    · rw [empty] at hmem; cases hmem
    · cases deserted _ hmem
  refine ⟨?_, fun id waiting => ?_, fun success id due => ?_⟩
  · simpa [empty] using h.handed
  · exact (h.claimed id waiting).resolve_right (nobody id)
  · rcases h.completed success id due with waiting | ⟨-, hold⟩ | completed
    · exact absurd waiting (nobody id)
    · exact absurd hold (deserted.not_holds id)
    · exact completed

end Clearing
end Floor
end JobPipeline
