import JobPipeline.Proofs.Service.Life

/-!
# No task gets lost

Whatever the order of starts and shutdowns, no task that was started gets lost: until it has ended,
the service has its handle or a shutdown waits for it (`Stage.Kept`). So where all shutdowns
have returned and the service has no handles, everybody has ended (`Stage.Tenure.ended`).

The service forgets its tasks at one point of a shutdown and is marked as shut down at a later one.
A start looks at these two and at nothing else, so its answer follows from the log
(`Stage.Tenure.startAnswer_eq`). If nobody starts the service while a shutdown is under way
(`Stage.apart`), the handles that a shutdown has taken are not replaced (`Stage.Life.forgotten`).
-/

namespace JobPipeline
namespace Stage

/-- Until a task has ended, the service has its handle or a shutdown waits for it. -/
def Kept (s : Stage) (a : ActorId) : Prop :=
  s.service.hasEnded a = true ∨
    (∃ handles, s.service.handles = some handles ∧ handles.Has a) ∨ ∃ call ∈ s.calls, call.Awaits a

namespace Kept

variable {s s' : Stage} {a : ActorId}

theorem ask (h : s.Kept a) : Kept { s with calls := s.calls ++ [.begun] } a := by
  refine h.imp_right fun kept => kept.imp_right ?_
  rintro ⟨call, hcall, awaits⟩
  exact ⟨call, List.mem_append_left _ hcall, awaits⟩

/-- A shutdown takes the handles over from the service, and lets go of them one by one. -/
theorem proceed (h : s.Kept a) {k : Nat} (hs : s.step (.proceed k) = some s') : s'.Kept a := by
  have ended (he : s.service.hasEnded a = true) := hasEnded_of_step hs he
  obtain ⟨call, call', service, hk, hstep, rfl⟩ := step_proceed_iff.1 hs
  have hmem' := mem_set_self hk call'
  rcases h with he | ⟨handles, hhandles, has⟩ | ⟨c, hc, awaits⟩
  · exact .inl (ended he)
  · rcases (Shutdown.advances_of_step hstep).handles with ⟨-, hsame⟩ | ⟨-, rfl, -⟩
    · exact .inr (.inl ⟨handles, hsame.trans hhandles, has⟩)
    · rw [hhandles] at hmem' ⊢
      exact .inr (.inr ⟨_, hmem', has⟩)
  · by_cases hcall : c = call
    · subst hcall
      rcases Shutdown.awaits_of_step hstep awaits with awaits | he
      · exact .inr (.inr ⟨call', hmem', awaits⟩)
      · exact .inl (ended he)
    · exact .inr (.inr ⟨c, mem_set_of_ne hk hc hcall call', awaits⟩)

/-- A start that succeeds finds no handles that it could drop, and has those of its own tasks. -/
theorem start (h : s.Kept a) {service : Service} (hs : s.service.start = .ok service) :
    Kept { s with service } a := by
  rcases Service.hasEnded_of_start hs a with mine | same
  · exact .inr (.inl mine)
  · rcases h with he | ⟨handles, hhandles, -⟩ | awaits
    · exact .inl (same.trans he)
    · rw [(Service.start_eq_ok hs).1] at hhandles; cases hhandles
    · exact .inr (.inr awaits)

end Kept

/-- What the log tells of a service, and what becomes of its tasks.

  * `running`   — the service has tasks since a start that no shutdown has undone.
  * `asked`     — the log has the calls that were made.
  * `taken`     — a shutdown that is said to have taken the handles has done so.
  * `returned`  — the log has the shutdowns that returned.
  * `refusing`  — creations are refused from the first move of a shutdown on.
  * `marked`    — the service is marked when a shutdown returns, and not before.
  * `shut`      — a shutdown that is past the closing of the queue has closed it.
  * `listening` — every worker listens to the workers' token.
  * `kept`      — no task is lost. -/
structure Tenure (log : List Notice) (s : Stage) : Prop where
  running : s.service.isRunning = hasTasks log
  asked : .asked ∈ log ↔ s.calls ≠ []
  taken : .taken ∈ log → ∃ call ∈ s.calls, call.hasTaken = true
  returned : .returned ∈ log ↔ .returned ∈ s.calls
  refusing : s.world.isFired .accepting = true ↔ ∃ call ∈ s.calls, call ≠ .begun
  marked : s.world.isFired .shutdown = true ↔ .returned ∈ s.calls
  shut : ∀ call ∈ s.calls, call.hasClosed = true → s.queue.isOpen = false
  listening : ∀ t ∈ s.tasks, t.stop = .workers
  kept : ∀ a, s.Kept a

/-- What is told of a shutdown's move. -/
theorem mem_notices_proceed {s : Stage} {k : Nat} {call : Shutdown} (hk : s.calls[k]? = some call)
    {notice : Notice} : notice ∈ s.notices (.turn (.proceed k)) ↔
      (notice = .taken ∧ call = .refusing) ∨ (notice = .returned ∧ call = .finishing) := by
  simp only [notices, hk]
  cases call <;> simp

/-- A shutdown's move takes the tasks if it takes the handles. -/
theorem hasTasks_proceed {s : Stage} {k : Nat} {call : Shutdown} (hk : s.calls[k]? = some call)
    (log : List Notice) : hasTasks (log ++ s.notices (.turn (.proceed k))) =
      (hasTasks log && decide (call ≠ .refusing)) := by
  simp only [notices, hk]
  cases call <;> simp [Notice.tasks]

/-- A service that nobody has started or shut down. -/
def fresh (service : Service) : Stage := ⟨service, [], []⟩

namespace Tenure

variable {log : List Notice} {s s' : Stage}

theorem of_fresh {config : JobsConfig} {exec : Executor} {service : Service}
    (built : Service.withExecutor config exec = .ok service) : (fresh service).Tenure [] := by
  obtain rfl : service = .ofConfig config exec := by
    unfold Service.withExecutor at built
    split at built
    · cases built
    · split at built
      · cases built
      · cases built; rfl
  have nobody {α : Type} {x : α} {P : Prop} (h : x ∈ []) : P := absurd h List.not_mem_nil
  refine ⟨rfl, ?_, nobody, ?_, ?_, ?_, fun _ => nobody, fun _ => nobody, fun a => .inl ?_⟩
  · exact ⟨nobody, fun h => absurd rfl h⟩
  · exact ⟨nobody, nobody⟩
  · exact ⟨nofun, fun ⟨_, h, _⟩ => nobody h⟩
  · exact ⟨nofun, nobody⟩
  · cases a <;> rfl

/-- What neither shutdowns nor starts have to do with. -/
theorem quiet (h : s.Tenure log) (handles : s'.service.handles = s.service.handles)
    (calls : s'.calls = s.calls) (fired : s'.world.fired = s.world.fired)
    (closed : s.queue.isOpen = false → s'.queue.isOpen = false)
    (listening : ∀ t ∈ s'.tasks, t.stop = .workers)
    (ended : ∀ a, s.service.hasEnded a = true → s'.service.hasEnded a = true) : s'.Tenure log where
  running := by rw [Service.isRunning, handles]; exact h.running
  asked := by rw [calls]; exact h.asked
  taken := by rw [calls]; exact h.taken
  returned := by rw [calls]; exact h.returned
  refusing := by rw [World.isFired, fired, calls]; exact h.refusing
  marked := by rw [World.isFired, fired, calls]; exact h.marked
  shut := by rw [calls]; exact fun call hcall past => closed (h.shut call hcall past)
  listening := listening
  kept a := by
    rw [Kept, handles, calls]
    exact (h.kept a).imp_left (ended a)

theorem ask (h : s.Tenure log) :
    Tenure (log ++ [.asked]) { s with calls := s.calls ++ [.begun] } where
  running := by rw [hasTasks_concat]; exact h.running
  asked := by simp
  taken hmem := by
    rcases List.mem_append.1 hmem with hmem | hmem
    · obtain ⟨call, hcall, taken⟩ := h.taken hmem
      exact ⟨call, List.mem_append_left _ hcall, taken⟩
    · cases List.mem_singleton.1 hmem
  returned := by simpa using h.returned
  refusing := by simpa using h.refusing
  marked := by simpa using h.marked
  shut call hcall past := by
    rcases List.mem_append.1 hcall with hcall | hcall
    · exact h.shut call hcall past
    · rw [List.mem_singleton.1 hcall] at past; cases past
  listening := h.listening
  kept a := (h.kept a).ask

/-- A move of a shutdown. -/
theorem proceed (h : s.Tenure log) {k : Nat} (hs : s.step (.proceed k) = some s') :
    s'.Tenure (log ++ s.notices (.turn (.proceed k))) := by
  have kept (a : ActorId) := (h.kept a).proceed hs
  obtain ⟨call, call', service, hk, hstep, rfl⟩ := step_proceed_iff.1 hs
  have advances := Shutdown.advances_of_step hstep
  have hmem := List.mem_of_getElem? hk
  have hmem' := mem_set_self hk call'
  have returned : .returned ∈ s.calls.set k call' ↔ call = .finishing ∨ .returned ∈ s.calls := by
    constructor
    · intro hreturned
      rcases List.mem_or_eq_of_mem_set hreturned with hold | heq
      · exact .inr hold
      · exact .inl (advances.eq_returned_iff.1 heq.symm)
    · rintro (rfl | hold)
      · rw [advances.eq_returned_iff.2 rfl] at hmem' ⊢; exact hmem'
      · exact mem_set_of_ne hk hold advances.ne_returned.symm call'
  refine ⟨?_, ?_, ?_, ?_, ?_, ?_, ?_, ?_, kept⟩
  · -- running
    rw [hasTasks_proceed hk, ← h.running]
    rcases advances.handles with ⟨hne, hsame⟩ | ⟨rfl, -, hnone⟩
    · simp [Service.isRunning, hsame, hne]
    · simp [Service.isRunning, hnone]
  · -- asked
    have hcalls : s.calls.set k call' ≠ [] := List.ne_nil_of_mem hmem'
    have hasked : .asked ∈ log := h.asked.2 (List.ne_nil_of_mem hmem)
    exact ⟨fun _ => hcalls, fun _ => List.mem_append_left _ hasked⟩
  · -- taken
    intro hnotice
    rcases List.mem_append.1 hnotice with hold | hnew
    · obtain ⟨c, hc, taken⟩ := h.taken hold
      by_cases hcall : c = call
      · exact ⟨call', hmem', advances.hasTaken_of_hasTaken (hcall ▸ taken)⟩
      · exact ⟨c, mem_set_of_ne hk hc hcall call', taken⟩
    · rcases (mem_notices_proceed hk).1 hnew with ⟨-, rfl⟩ | ⟨hnotice, -⟩
      · exact ⟨call', hmem', advances.hasTaken_of_refusing⟩
      · cases hnotice
  · -- returned
    rw [returned, List.mem_append, h.returned, or_comm, mem_notices_proceed hk]
    simp
  · -- refusing
    change service.world.isFired .accepting = true ↔ _
    rw [advances.isFired_accepting, Bool.or_eq_true, decide_eq_true_eq]
    refine ⟨fun _ => ⟨call', hmem', advances.ne_begun⟩, fun _ => ?_⟩
    by_cases hcall : call = .begun
    · exact .inl hcall
    · exact .inr (h.refusing.2 ⟨call, hmem, hcall⟩)
  · -- marked
    change service.world.isFired .shutdown = true ↔ .returned ∈ s.calls.set k call'
    rw [advances.isFired_shutdown, Bool.or_eq_true, decide_eq_true_eq, returned]
    exact or_congr_right h.marked
  · -- shut
    intro c hc past
    rcases List.mem_or_eq_of_mem_set hc with hc | rfl
    · exact advances.closed (h.shut c hc past)
    · exact (advances.hasClosed past).elim (fun past => advances.closed (h.shut call hmem past)) id
  · -- listening
    rw [show Stage.tasks _ = s.tasks from advances.timeline.1]
    exact h.listening

/-- A start that succeeds. -/
theorem start (h : s.Tenure log) {service : Service} (hs : s.service.start = .ok service) :
    Tenure (log ++ [.started (.ok ())]) { s with service } := by
  obtain ⟨-, -, hworld, positions, -, hhandles, -, hworkers, -⟩ := Service.start_eq_ok hs
  refine ⟨?_, ?_, ?_, ?_, ?_, ?_, ?_, ?_, fun a => (h.kept a).start hs⟩
  · rw [hasTasks_concat, Service.isRunning, hhandles]; rfl
  · simpa using h.asked
  · simpa using h.taken
  · simpa using h.returned
  · rw [show Stage.world _ = s.world from hworld]; exact h.refusing
  · rw [show Stage.world _ = s.world from hworld]; exact h.marked
  · rw [show Stage.queue _ = s.queue from congrArg (·.pipeline.queue) hworld]; exact h.shut
  · rw [show Stage.tasks _ = _ from hworkers]
    intro t ht
    rcases List.mem_append.1 ht with ht | ht
    · exact h.listening t ht
    · obtain ⟨i, -, rfl⟩ := List.mem_map.1 ht
      rfl

/-- A turn of anybody but a shutdown. -/
theorem others (h : s.Tenure log) {turn : Turn} (plain : Event.Plain (.turn turn))
    (idle : ∀ k, turn ≠ .proceed k) (silent : turn ≠ .call) (hs : s.step turn = some s') :
    s'.Tenure log := by
  have ended {a : ActorId} (he : s.service.hasEnded a = true) := hasEnded_of_step hs he
  cases turn with
  | call => exact absurd rfl silent
  | proceed k => exact absurd rfl (idle k)
  | work i exec =>
    obtain ⟨t, t', w, ht, hstep, hworld, tasks, handles, calls, -⟩ := step_work hs
    obtain ⟨hstop, hfired⟩ := Task.keeps_of_step plain hstep
    refine h.quiet handles calls (by rw [hworld]; exact hfired) ?_ ?_ fun _ => ended
    · intro closed
      rw [show s'.queue = w.pipeline.queue by rw [← hworld]]
      exact Task.closed_of_step plain hstep closed
    · rw [tasks]
      intro u hu
      rcases List.mem_or_eq_of_mem_set hu with hu | rfl
      · exact h.listening u hu
      · exact hstop.trans (h.listening t (List.mem_of_getElem? ht))
  | sweep i =>
    obtain ⟨t, t', w, -, hstep, rfl, tasks, handles, calls, -⟩ := step_sweep hs
    obtain ⟨stirs, fired⟩ := SweeperTask.stirs_of_step true hstep
    refine h.quiet handles calls fired ?_ (by rw [tasks]; exact h.listening) fun _ => ended
    intro closed
    exact (stirs.queue closed).2.trans closed
  | request _ now r => cases hs; exact h.quiet rfl rfl rfl id h.listening fun _ => ended
  | create k =>
    obtain ⟨c, c', p, -, hstep, hworld, tasks, handles, calls, -⟩ := step_create hs
    refine h.quiet handles calls (by rw [hworld]) ?_ (by rw [tasks]; exact h.listening)
      fun _ => ended
    intro closed
    rw [show s'.queue = p.queue from congrArg (·.pipeline.queue) hworld]
    exact Creation.closed_of_step hstep closed
  | wait ms => cases hs; exact h.quiet rfl rfl rfl id h.listening fun _ => ended

/-- **No task gets lost, whatever happens.** -/
theorem advance (h : s.Tenure log) {event : Event} (plain : event.Plain)
    (hs : s.advance event = some s') : s'.Tenure (log ++ s.notices event) := by
  cases event with
  | look =>
    cases hs
    rw [show s.notices .look = [] from rfl, List.append_nil]
    exact h
  | start =>
    simp only [Stage.advance] at hs
    simp only [notices, startAnswer]
    split at hs
    · rename_i service hstart
      cases hs
      rw [hstart]
      exact h.start hstart
    · rename_i e hstart
      cases hs
      rw [hstart]
      refine ⟨?_, ?_, ?_, ?_, h.refusing, h.marked, h.shut, h.listening, h.kept⟩
      · rw [hasTasks_concat]; exact h.running
      · simpa using h.asked
      · simpa using h.taken
      · simpa using h.returned
  | turn turn =>
    have others (idle : ∀ k, turn ≠ .proceed k) (silent : turn ≠ .call)
        (nothing : s.notices (.turn turn) = []) :
        s'.Tenure (log ++ s.notices (.turn turn)) := by
      rw [nothing, List.append_nil]
      exact h.others plain idle silent hs
    cases turn with
    | call => cases hs; exact h.ask
    | proceed k => exact h.proceed hs
    | _ => exact others nofun nofun rfl

/-- The answer to a start follows from the log: while there are tasks that no shutdown has taken the
service is running, and once a shutdown has returned it is over. -/
theorem startAnswer_eq (h : s.Tenure log) : s.startAnswer =
    if hasTasks log then .error Service.alreadyRunning
    else if .returned ∈ log then .error .cancelled
    else .ok () := by
  have hmarked : s.service.world.isFired .shutdown = decide (.returned ∈ log) := by
    rw [Bool.eq_iff_iff, decide_eq_true_eq, h.returned]
    exact h.marked
  simp only [startAnswer, Service.start, h.running, hmarked, decide_eq_true_eq]
  split
  · rfl
  · split <;> rfl

/-- What a refused start does. -/
theorem advance_of_refused {e : JobError} (refused : s.startAnswer = .error e) :
    s.advance .start = some s := by
  simp only [startAnswer] at refused
  simp only [Stage.advance]
  cases hstart : s.service.start with
  | ok service => rw [hstart] at refused; cases refused
  | error e => rfl

/-- Where all shutdowns have returned, the tasks that are left are those that the service has the
handles of. -/
theorem left (h : s.Tenure log) (idle : ∀ call ∈ s.calls, call = .returned) (a : ActorId) :
    s.service.hasEnded a = true ∨ ∃ handles, s.service.handles = some handles ∧ handles.Has a := by
  refine (h.kept a).imp_right fun kept => kept.resolve_right ?_
  rintro ⟨call, hcall, awaits⟩
  rw [idle call hcall] at awaits
  exact awaits

/-- Where all shutdowns have returned and the service has no handles, nobody is left. -/
theorem ended (h : s.Tenure log) (idle : ∀ call ∈ s.calls, call = .returned)
    (gone : s.service.handles = none) (a : ActorId) : s.service.hasEnded a = true := by
  refine (h.left idle a).resolve_right ?_
  rintro ⟨handles, hhandles, -⟩
  rw [gone] at hhandles
  cases hhandles

end Tenure

section
variable {allowed : Stage → Event → Bool} {config : JobsConfig} {exec : Executor}
variable {service : Service} {log : List Notice} {s s' e : Stage}

theorem Life.tenure (built : Service.withExecutor config exec = .ok service)
    (life : (fresh service).Life allowed log e) : e.Tenure log := by
  induction life with
  | refl => exact .of_fresh built
  | tail _ plain _ step ih => exact ih.advance plain step

/-! ## Starts that keep away from shutdowns -/

/-- Nobody starts the service while a shutdown is under way. -/
def apart (s : Stage) : Event → Bool
  | .start => s.calls.all fun call => call = .begun || call = .returned
  | _ => true

/-- A shutdown that has looked for the handles has left none. -/
def Forgotten (s : Stage) : Prop :=
  ∀ call ∈ s.calls, call.hasTaken = true → s.service.handles = none

theorem Forgotten.of_step (h : s.Forgotten) {turn : Turn} (hs : s.step turn = some s') :
    s'.Forgotten := by
  have same (handles : s'.service.handles = s.service.handles) (calls : s'.calls = s.calls) :
      s'.Forgotten := by rw [Forgotten, handles, calls]; exact h
  cases turn with
  | call =>
    cases hs
    intro call hcall taken
    rcases List.mem_append.1 hcall with hcall | hcall
    · exact h call hcall taken
    · rw [List.mem_singleton.1 hcall] at taken; cases taken
  | proceed k =>
    obtain ⟨call, call', service, hk, hstep, rfl⟩ := step_proceed_iff.1 hs
    have advances := Shutdown.advances_of_step hstep
    have hmem := List.mem_of_getElem? hk
    intro c hc taken
    rcases advances.handles with ⟨hne, hsame⟩ | ⟨-, -, hnone⟩
    · rw [show Service.handles _ = _ from hsame]
      rcases List.mem_or_eq_of_mem_set hc with hc | rfl
      · exact h c hc taken
      · exact h call hmem (advances.hasTaken hne taken)
    · exact hnone
  | work i exec =>
    obtain ⟨-, -, -, -, -, -, -, handles, calls, -⟩ := step_work hs
    exact same handles calls
  | sweep i =>
    obtain ⟨-, -, -, -, -, -, -, handles, calls, -⟩ := step_sweep hs
    exact same handles calls
  | request _ now r => cases hs; exact h
  | create k =>
    obtain ⟨-, -, -, -, -, -, -, handles, calls, -⟩ := step_create hs
    exact same handles calls
  | wait ms => cases hs; exact h

theorem Forgotten.advance (h : s.Forgotten) (tenure : s.Tenure log) {event : Event}
    (keeps : s.apart event = true) (hs : s.advance event = some s') : s'.Forgotten := by
  cases event with
  | look => cases hs; exact h
  | turn turn => exact h.of_step hs
  | start =>
    simp only [Stage.advance] at hs
    split at hs
    · rename_i started hstart
      cases hs
      -- A shutdown that has returned has marked the service, and no start would have succeeded.
      obtain ⟨-, unmarked, -⟩ := Service.start_eq_ok hstart
      intro call hcall taken
      have hcalls := List.all_eq_true.1 keeps call hcall
      simp only [Bool.or_eq_true, decide_eq_true_eq] at hcalls
      rcases hcalls with rfl | rfl
      · cases taken
      · have marked : s.service.world.isFired .shutdown = true := tenure.marked.2 hcall
        rw [marked] at unmarked
        cases unmarked
    · cases hs; exact h

theorem Life.forgotten (built : Service.withExecutor config exec = .ok service)
    (life : (fresh service).Life allowed log e)
    (keeps : ∀ s event, allowed s event = true → s.apart event = true) : e.Forgotten := by
  induction life with
  | refl => exact nofun
  | tail life _ allows step ih => exact ih.advance (life.tenure built) (keeps _ _ allows) step

end

end Stage
end JobPipeline
