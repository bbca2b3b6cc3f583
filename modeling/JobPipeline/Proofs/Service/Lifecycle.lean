import JobPipeline.Proofs.Service.Restart

/-!
# The life cycle of a service

Let each call of a service be finished before the next one begins, while its workers and its sweeper
do what they like (`Stage.sequential`). Then the service goes through three phases, and every answer
tells which (`Stage.lifecycle`): at first it can be started, then it runs, and from the first
shutdown on it refuses everything.

When a shutdown has returned the service stands still for good. Everybody has ended, whether the
workers went home or were told to stop (`Stage.Sequence.gone`), so nothing that may still be called
finds anything to change (`Stage.Sequence.still`).
-/

namespace JobPipeline

/-- A creation is refused by the store or not at all. -/
theorem Creation.step_cases {refused : Bool} {c c' : Creation} {p p' : Pipeline}
    (hs : c.step refused p = some (c', p')) :
    (∃ job, c = .storing job ∧ refused = false ∧ c' = .stored job) ∨
      (∃ job, c = .storing job ∧ refused = true ∧ c' = .done (.error .cancelled) ∧ p' = p) ∨
      (∃ job, c = .stored job ∧ c' = .counted job) ∨
      ∃ job, c = .counted job ∧ c' = .done (.ok job) := by
  cases c with
  | storing job =>
    cases refused with
    | false => cases hs; exact .inl ⟨job, rfl, rfl, rfl⟩
    | true => cases hs; exact .inr (.inl ⟨job, rfl, rfl, rfl, rfl⟩)
  | stored job => cases hs; exact .inr (.inr (.inl ⟨job, rfl, rfl⟩))
  | counted job => cases hs; exact .inr (.inr (.inr ⟨job, rfl, rfl⟩))
  | done result => cases hs

/-- The moves a creation has left, at most. -/
def Creation.left : Creation → Nat
  | .storing _ => 3
  | .stored _ => 2
  | .counted _ => 1
  | .done _ => 0

/-- A creation goes on until it has an answer. -/
theorem Creation.can_step (refused : Bool) {c : Creation} (undone : c.result? = none)
    (p : Pipeline) : ∃ c' p', c.step refused p = some (c', p') ∧ c'.left < c.left := by
  cases c with
  | storing job =>
    cases refused with
    | false => exact ⟨_, _, rfl, Nat.lt_succ_self _⟩
    | true => exact ⟨_, _, rfl, Nat.zero_lt_succ _⟩
  | stored job => exact ⟨_, _, rfl, Nat.lt_succ_self _⟩
  | counted job => exact ⟨_, _, rfl, Nat.lt_succ_self _⟩
  | done result => cases undone

namespace Stage

/-- Nobody waits for an answer. -/
def idle (s : Stage) : Bool :=
  s.calls.all (fun call => call = .returned) && s.creations.all fun c => c.result?.isSome

/-- Each call is finished before the next one begins. -/
def sequential (s : Stage) : Event → Bool
  | .start => s.idle
  | .look => s.idle
  | .turn .call => s.idle
  | .turn (.request _ _ _) => s.idle
  | .turn _ => true

theorem idle_iff {s : Stage} : s.idle = true ↔
    (∀ call ∈ s.calls, call = .returned) ∧ ∀ c ∈ s.creations, c.result?.isSome = true := by
  simp [idle]

theorem apart_of_sequential (s : Stage) (event : Event) (h : s.sequential event = true) :
    s.apart event = true := by
  cases event with
  | start =>
    refine List.all_eq_true.2 fun call hcall => ?_
    rw [(idle_iff.1 h).1 call hcall]
    rfl
  | _ => rfl

/-- What holds of a service whose calls come one after the other.

  * `single`   — at most one shutdown is under way.
  * `waiting`  — no shutdown is under way together with a creation.
  * `admitted` — creations get past the store only if no shutdown was called.
  * `gone`     — once a shutdown has returned everybody has ended. -/
structure Sequence (log : List Notice) (s : Stage) : Prop where
  tenure : s.Tenure log
  forgotten : s.Forgotten
  single : ∀ (i j : Nat) (call call' : Shutdown), s.calls[i]? = some call →
    s.calls[j]? = some call' → call ≠ .returned → call' ≠ .returned → i = j
  waiting : ∀ c ∈ s.creations, c.result? = none → ∀ call ∈ s.calls, call = .returned
  admitted : ∀ c ∈ s.creations, c.result? = none → (∀ job, c ≠ .storing job) → s.calls = []
  gone : .returned ∈ s.calls → ∀ a, s.service.hasEnded a = true

namespace Sequence

variable {log : List Notice} {s s' : Stage}

theorem of_fresh {config : JobsConfig} {exec : Executor} {service : Service}
    (built : Service.withExecutor config exec = .ok service) : Sequence [] (fresh service) where
  tenure := .of_fresh built
  forgotten _ h := absurd h List.not_mem_nil
  single i j call call' h := by cases h
  waiting _ h := absurd h List.not_mem_nil
  admitted _ h := absurd h List.not_mem_nil
  gone h := absurd h List.not_mem_nil

/-- Somebody asks for a shutdown. -/
theorem ask (h : Sequence log s) (idle : s.idle = true)
    (tenure : Tenure (log ++ [.asked]) { s with calls := s.calls ++ [.begun] })
    (forgotten : Forgotten { s with calls := s.calls ++ [.begun] }) :
    Sequence (log ++ [.asked]) { s with calls := s.calls ++ [.begun] } := by
  obtain ⟨returned, finished⟩ := idle_iff.1 idle
  have last (i : Nat) (call : Shutdown) (hi : (s.calls ++ [.begun])[i]? = some call)
      (pending : call ≠ .returned) : i = s.calls.length := by
    by_cases hlt : i < s.calls.length
    · rw [List.getElem?_append_left hlt] at hi
      exact absurd (returned call (List.mem_of_getElem? hi)) pending
    · rw [List.getElem?_append_right (by omega)] at hi
      have := (List.getElem?_eq_some_iff.1 hi).1
      rw [List.length_singleton] at this
      omega
  refine ⟨tenure, forgotten, ?_, ?_, ?_, ?_⟩
  · intro i j call call' hi hj pending pending'
    rw [last i call hi pending, last j call' hj pending']
  · intro c hc hnone
    have hdone := finished c hc
    rw [hnone] at hdone
    cases hdone
  · intro c hc hnone
    have hdone := finished c hc
    rw [hnone] at hdone
    cases hdone
  · intro hmem
    exact h.gone ((List.mem_append.1 hmem).resolve_right (by simp))

/-- A move of a shutdown. -/
theorem proceed (h : Sequence log s) {k : Nat} (hs : s.step (.proceed k) = some s')
    {log' : List Notice} (tenure : s'.Tenure log') (forgotten : s'.Forgotten) :
    Sequence log' s' := by
  have ended {a : ActorId} (he : s.service.hasEnded a = true) := hasEnded_of_step hs he
  obtain ⟨call, call', service, hk, hstep, rfl⟩ := step_proceed_iff.1 hs
  have advances := Shutdown.advances_of_step hstep
  have hmem := List.mem_of_getElem? hk
  have old (i : Nat) (c : Shutdown) (hi : (s.calls.set k call')[i]? = some c)
      (pending : c ≠ .returned) : ∃ c', s.calls[i]? = some c' ∧ c' ≠ .returned := by
    by_cases hik : k = i
    · subst hik; exact ⟨call, hk, advances.ne_returned⟩
    · rw [List.getElem?_set_ne hik] at hi; exact ⟨c, hi, pending⟩
  have busy {c : Creation} (hc : c ∈ s.creations) (hnone : c.result? = none) : False :=
    advances.ne_returned (h.waiting c hc hnone call hmem)
  refine ⟨tenure, forgotten, ?_, ?_, ?_, ?_⟩
  · intro i j c c' hi hj pending pending'
    obtain ⟨_, hi, pending⟩ := old i c hi pending
    obtain ⟨_, hj, pending'⟩ := old j c' hj pending'
    exact h.single i j _ _ hi hj pending pending'
  · intro c hc hnone; exact (busy hc hnone).elim
  · intro c hc hnone; exact (busy hc hnone).elim
  · intro returned a
    by_cases hold : .returned ∈ s.calls
    · exact ended (h.gone hold a)
    · -- This is the first shutdown to return, and no other one is under way.
      have heq := ((List.mem_or_eq_of_mem_set returned).resolve_left hold).symm
      have all (c : Shutdown) (hc : c ∈ s.calls.set k call') : c = .returned := by
        by_contra pending
        obtain ⟨i, hi⟩ := List.mem_iff_getElem?.1 hc
        obtain ⟨c', hi', pending'⟩ := old i c hi pending
        obtain rfl := h.single i k c' call hi' hk pending' advances.ne_returned
        rw [List.getElem?_set_self (List.getElem?_eq_some_iff.1 hk).1] at hi
        exact pending ((Option.some.inj hi).symm.trans heq)
      exact tenure.ended all (forgotten .returned returned rfl) a

theorem request (h : Sequence log s) (idle : s.idle = true) (job : Job)
    {log' : List Notice}
    (tenure : Tenure log' { s with creations := s.creations ++ [.storing job] })
    (forgotten : Forgotten { s with creations := s.creations ++ [.storing job] }) :
    Sequence log' { s with creations := s.creations ++ [.storing job] } where
  tenure := tenure
  forgotten := forgotten
  single := h.single
  waiting _ _ _ := (idle_iff.1 idle).1
  admitted c hc hnone other := by
    rcases List.mem_append.1 hc with hc | hc
    · exact h.admitted c hc hnone other
    · exact absurd (List.mem_singleton.1 hc) (other job)
  gone := h.gone

/-- While a creation is under way the service refuses it exactly if a shutdown was called. -/
theorem isAccepting_iff (h : Sequence log s) {c : Creation} (hc : c ∈ s.creations)
    (hnone : c.result? = none) : s.service.isAccepting = true ↔ s.calls = [] := by
  have refusing : s.service.world.isFired .accepting = true ↔ _ := h.tenure.refusing
  rw [Service.isAccepting, Bool.not_eq_true', ← Bool.not_eq_true, refusing]
  constructor
  · intro accepting
    by_contra hne
    obtain ⟨call, hcall⟩ := List.exists_mem_of_ne_nil _ hne
    exact accepting ⟨call, hcall, by rw [h.waiting c hc hnone call hcall]; exact nofun⟩
  · rintro hnil ⟨call, hcall, -⟩
    rw [hnil] at hcall
    exact List.not_mem_nil hcall

/-- A move of a creation. -/
theorem create (h : Sequence log s) {k : Nat} (hs : s.step (.create k) = some s')
    {log' : List Notice} (tenure : s'.Tenure log') (forgotten : s'.Forgotten) :
    Sequence log' s' := by
  have ended {a : ActorId} (he : s.service.hasEnded a = true) := hasEnded_of_step hs he
  obtain ⟨c, c', p, hk, hstep, -, -, -, calls, creations⟩ := step_create hs
  have hmem := List.mem_of_getElem? hk
  have undone : c.result? = none := by
    rcases Creation.step_cases hstep with ⟨job, rfl, -⟩ | ⟨job, rfl, -⟩ | ⟨job, rfl, -⟩ |
      ⟨job, rfl, -⟩ <;> rfl
  refine ⟨tenure, forgotten, ?_, ?_, ?_, ?_⟩
  · rw [calls]; exact h.single
  · rw [calls]
    intro d hd hnone
    rw [creations] at hd
    rcases List.mem_or_eq_of_mem_set hd with hd | rfl
    · exact h.waiting d hd hnone
    · exact h.waiting c hmem undone
  · rw [calls]
    intro d hd hnone other
    rw [creations] at hd
    rcases List.mem_or_eq_of_mem_set hd with hd | rfl
    · exact h.admitted d hd hnone other
    · rcases Creation.step_cases hstep with ⟨job, -, accepted, -⟩ | ⟨job, -, -, rfl, -⟩ |
        ⟨job, rfl, -⟩ | ⟨job, rfl, -⟩
      · exact (h.isAccepting_iff hmem undone).1 (by simpa using accepted)
      · cases hnone
      · exact h.admitted _ hmem rfl nofun
      · exact h.admitted _ hmem rfl nofun
  · rw [calls]; exact fun returned a => ended (h.gone returned a)

/-- **Calls that come one after the other keep to the sequence.** -/
theorem advance (h : Sequence log s) {event : Event} (plain : event.Plain)
    (allows : s.sequential event = true) (hs : s.advance event = some s') :
    Sequence (log ++ s.notices event) s' := by
  have tenure := h.tenure.advance plain hs
  have forgotten := h.forgotten.advance h.tenure (apart_of_sequential _ _ allows) hs
  have same (calls : s'.calls = s.calls) (creations : s'.creations = s.creations)
      (ended : .returned ∈ s.calls → ∀ a, s.service.hasEnded a = true →
        s'.service.hasEnded a = true) : Sequence (log ++ s.notices event) s' := by
    refine ⟨tenure, forgotten, ?_, ?_, ?_, ?_⟩
    · rw [calls]; exact h.single
    · rw [calls, creations]; exact h.waiting
    · rw [calls, creations]; exact h.admitted
    · rw [calls]; exact fun returned a => ended returned a (h.gone returned a)
  cases event with
  | look => cases hs; exact same rfl rfl fun _ _ => id
  | start =>
    simp only [Stage.advance] at hs
    split at hs
    · rename_i service hstart
      cases hs
      refine same rfl rfl fun returned => ?_
      have marked : s.service.world.isFired .shutdown = true := h.tenure.marked.2 returned
      rw [(Service.start_eq_ok hstart).2.1] at marked
      cases marked
    · cases hs; exact same rfl rfl fun _ _ => id
  | turn turn =>
    have ended {a : ActorId} (he : s.service.hasEnded a = true) := hasEnded_of_step hs he
    cases turn with
    | call => cases hs; exact h.ask allows tenure forgotten
    | proceed k => exact h.proceed hs tenure forgotten
    | work i exec =>
      obtain ⟨-, -, -, -, -, -, -, -, calls, creations⟩ := step_work hs
      exact same calls creations fun _ _ => ended
    | sweep i =>
      obtain ⟨-, -, -, -, -, -, -, -, calls, creations⟩ := step_sweep hs
      exact same calls creations fun _ _ => ended
    | request _ now r => cases hs; exact h.request allows _ tenure forgotten
    | create k => exact h.create hs tenure forgotten
    | wait ms => cases hs; exact same rfl rfl fun _ _ => id

/-! ## What callers find -/

/-- The answer to a start. -/
theorem startAnswer_eq (h : Sequence log s) (idle : s.idle = true) : s.startAnswer =
    if .asked ∈ log then .error .cancelled
    else if .started (.ok ()) ∈ log then .error Service.alreadyRunning
    else .ok () := by
  rw [h.tenure.startAnswer_eq]
  by_cases asked : .asked ∈ log
  · -- The shutdown that was called has returned, and has left no handles.
    obtain ⟨call, hcall⟩ := List.exists_mem_of_ne_nil _ (h.tenure.asked.1 asked)
    obtain rfl := (idle_iff.1 idle).1 call hcall
    have stopped : hasTasks log = false := by
      rw [← h.tenure.running, Service.isRunning, h.forgotten _ hcall rfl]; rfl
    simp [asked, stopped, h.tenure.returned.2 hcall]
  · have hnil : s.calls = [] := Decidable.not_not.1 fun hne => asked (h.tenure.asked.2 hne)
    have unreturned : .returned ∉ log := fun hmem => by
      have := h.tenure.returned.1 hmem
      rw [hnil] at this
      exact List.not_mem_nil this
    have untaken : .taken ∉ log := fun hmem => by
      obtain ⟨call, hcall, -⟩ := h.tenure.taken hmem
      rw [hnil] at hcall
      exact List.not_mem_nil hcall
    have tasks : hasTasks log = true ↔ .started (.ok ()) ∈ log :=
      ⟨started_of_hasTasks, fun hmem => (hasTasks_or_taken hmem).resolve_right untaken⟩
    simp [asked, unreturned, tasks]

/-- The service is ready from the start that succeeds to the first move of a shutdown. -/
theorem isReady_iff (h : Sequence log s) : s.service.isReady = true ↔
    .started (.ok ()) ∈ log ∧ ∀ call ∈ s.calls, call = .begun := by
  have refusing : s.service.world.isFired .accepting = true ↔ _ := h.tenure.refusing
  rw [Service.isReady, Bool.and_eq_true, h.tenure.running, Service.isAccepting, Bool.not_eq_true',
    ← Bool.not_eq_true, refusing]
  constructor
  · rintro ⟨tasks, untouched⟩
    refine ⟨started_of_hasTasks tasks, fun call hcall => ?_⟩
    by_contra hne
    exact untouched ⟨call, hcall, hne⟩
  · rintro ⟨started, begun⟩
    refine ⟨(hasTasks_or_taken started).resolve_right fun htaken => ?_, ?_⟩
    · obtain ⟨call, hcall, taken⟩ := h.tenure.taken htaken
      rw [begun call hcall] at taken
      cases taken
    · rintro ⟨call, hcall, hne⟩
      exact hne (begun call hcall)

/-- What a creation comes to. -/
theorem created (h : Sequence log s) {k : Nat} (hs : s.step (.create k) = some s')
    {answer : Except JobError Job} (hanswer : s'.creations[k]? = some (.done answer)) :
    (.asked ∉ log → ∃ job, answer = .ok job) ∧
      (.asked ∈ log → answer = .error .cancelled ∧ s'.pipeline = s.pipeline ∧
        ∃ job, s.creations[k]? = some (.storing job)) := by
  obtain ⟨c, c', p, hk, hstep, hworld, -, -, -, creations⟩ := step_create hs
  have hmem := List.mem_of_getElem? hk
  rw [creations, List.getElem?_set_self (List.getElem?_eq_some_iff.1 hk).1] at hanswer
  obtain rfl : c' = .done answer := Option.some.inj hanswer
  rcases Creation.step_cases hstep with ⟨job, -, -, hdone⟩ | ⟨job, rfl, refused, hdone, rfl⟩ |
    ⟨job, -, hdone⟩ | ⟨job, rfl, hdone⟩
  · cases hdone
  · cases hdone
    refine ⟨fun unasked => ?_, fun _ => ⟨rfl, by rw [Stage.pipeline, hworld], job, hk⟩⟩
    have hnil : s.calls = [] := Decidable.not_not.1 fun hne => unasked (h.tenure.asked.2 hne)
    rw [(h.isAccepting_iff hmem rfl).2 hnil] at refused
    cases refused
  · cases hdone
  · cases hdone
    refine ⟨fun _ => ⟨job, rfl⟩, fun asked => ?_⟩
    exact absurd (h.admitted _ hmem rfl nofun) (h.tenure.asked.1 asked)

/-! ## Standing still -/

/-- **After a shutdown has returned nothing changes.** -/
theorem still (h : Sequence log s) (returned : .returned ∈ s.calls) {event : Event}
    (hs : s.advance event = some s') : s'.pipeline = s.pipeline ∧ .returned ∈ s'.calls := by
  have closed : s.queue.isOpen = false := h.tenure.shut _ returned rfl
  cases event with
  | look => cases hs; exact ⟨rfl, returned⟩
  | start =>
    simp only [Stage.advance] at hs
    split at hs
    · rename_i service hstart
      cases hs
      exact ⟨congrArg World.pipeline (Service.start_eq_ok hstart).2.2.1, returned⟩
    · cases hs; exact ⟨rfl, returned⟩
  | turn turn =>
    cases turn with
    | call => cases hs; exact ⟨rfl, List.mem_append_left _ returned⟩
    | proceed k =>
      obtain ⟨call, call', service, hk, hstep, rfl⟩ := step_proceed_iff.1 hs
      have advances := Shutdown.advances_of_step hstep
      refine ⟨?_, mem_set_of_ne hk returned advances.ne_returned.symm call'⟩
      rcases advances.pipeline with hp | hp
      · exact hp
      · -- The queue is closed already.
        refine hp.trans ?_
        show { s.pipeline with queue := { s.queue with isOpen := false } } = s.pipeline
        rw [← closed]
    | work i exec =>
      obtain ⟨t, t', w, ht, hstep, -⟩ := step_work hs
      have ended := h.gone returned (.worker i)
      rw [hasEnded_worker, ht, Option.all_some, Task.not_ended_of_step hstep] at ended
      cases ended
    | sweep i =>
      obtain ⟨t, t', ht, alive, -⟩ := sweepers_of_sweep hs
      have ended := h.gone returned (.sweeper i)
      rw [hasEnded_sweeper, ht, Option.all_some, alive] at ended
      cases ended
    | request _ now r => cases hs; exact ⟨rfl, returned⟩
    | create k =>
      obtain ⟨c, c', p, hk, hstep, hworld, -, -, calls, -⟩ := step_create hs
      have hmem := List.mem_of_getElem? hk
      have hne : s.calls ≠ [] := List.ne_nil_of_mem returned
      rw [calls, Stage.pipeline, hworld]
      refine ⟨?_, returned⟩
      rcases Creation.step_cases hstep with ⟨job, rfl, accepted, -⟩ | ⟨job, -, -, -, rfl⟩ |
        ⟨job, rfl, -⟩ | ⟨job, rfl, -⟩
      · exact absurd ((h.isAccepting_iff hmem rfl).1 (by simpa using accepted)) hne
      · rfl
      · exact absurd (h.admitted _ hmem rfl (by simp)) hne
      · exact absurd (h.admitted _ hmem rfl (by simp)) hne
    | wait ms => cases hs; exact ⟨rfl, returned⟩

theorem life (h : Sequence log s) {log' : List Notice} (life : s.Life sequential log' s') :
    Sequence (log ++ log') s' := by
  induction life with
  | refl => rw [List.append_nil]; exact h
  | tail _ plain allows step ih => rw [← List.append_assoc]; exact ih.advance plain allows step

theorem still_life (h : Sequence log s) (returned : .returned ∈ s.calls) {log' : List Notice}
    (life : s.Life sequential log' s') : s'.pipeline = s.pipeline ∧ .returned ∈ s'.calls := by
  induction life with
  | refl => exact ⟨rfl, returned⟩
  | tail more _ _ step ih =>
    obtain ⟨same, returned⟩ := ih
    obtain ⟨same', returned'⟩ := (h.life more).still returned step
    exact ⟨same'.trans same, returned'⟩

end Sequence

/-- A creation can go on whatever the others do, and is closer to its answer then. -/
theorem can_create (s : Stage) {k : Nat} {c : Creation} (hk : s.creations[k]? = some c)
    (undone : c.result? = none) :
    ∃ s' c', s.step (.create k) = some s' ∧ s'.creations[k]? = some c' ∧ c'.left < c.left := by
  obtain ⟨c', p, hstep, less⟩ :=
    Creation.can_step (!s.service.isAccepting) undone s.service.pipeline
  have moves : s.step (.create k) = some
      { s with service := s.service.withPipeline p, creations := s.creations.set k c' } := by
    simp only [step, hk, Option.bind_eq_bind, Option.bind_some, hstep]
    rfl
  have there := List.getElem?_set_self (a := c') (List.getElem?_eq_some_iff.1 hk).1
  exact ⟨_, c', moves, there, less⟩

/-- **The life cycle of a service.** Let each call be finished before the next one begins.

A start succeeds if none has before and no shutdown was called; it is refused as a second one while
the service runs, and as too late after any shutdown, and a refused start changes nothing. A
creation always comes to an answer: it succeeds if no shutdown was called, and else it is refused at
its first move and leaves store, queue and ledger alone. The service is ready from the start that
succeeds until a shutdown makes its first move. When a shutdown has returned nothing that is called,
and nobody at work, changes store, queue or ledger ever again. -/
theorem lifecycle {config : JobsConfig} {exec : Executor} {service : Service}
    (built : Service.withExecutor config exec = .ok service) {log : List Notice} {e : Stage}
    (life : (fresh service).Life sequential log e) :
    (e.idle = true → e.startAnswer =
      if .asked ∈ log then .error .cancelled
      else if .started (.ok ()) ∈ log then .error Service.alreadyRunning
      else .ok ()) ∧
    (∀ error, e.startAnswer = .error error → e.advance .start = some e) ∧
    (∀ k c, e.creations[k]? = some c → c.result? = none → ∃ e' c',
      e.step (.create k) = some e' ∧ e'.creations[k]? = some c' ∧ c'.left < c.left) ∧
    (∀ k e' answer, e.step (.create k) = some e' → e'.creations[k]? = some (.done answer) →
      (.asked ∉ log → ∃ job, answer = .ok job) ∧
      (.asked ∈ log → answer = .error .cancelled ∧ e'.pipeline = e.pipeline ∧
        ∃ job, e.creations[k]? = some (.storing job))) ∧
    (e.service.isReady = true ↔
      .started (.ok ()) ∈ log ∧ ∀ call ∈ e.calls, call = .begun) ∧
    (.returned ∈ log → ∀ log' e', e.Life sequential log' e' → e'.pipeline = e.pipeline) := by
  have sequence : Sequence log e := by
    have start := Sequence.of_fresh built
    simpa using start.life life
  refine ⟨sequence.startAnswer_eq, fun _ => Tenure.advance_of_refused, ?_, ?_, ?_, ?_⟩
  · intro k c hk undone
    exact e.can_create hk undone
  · intro k e' answer hs hanswer
    exact sequence.created hs hanswer
  · exact sequence.isReady_iff
  · intro returned log' e' more
    exact (sequence.still_life (sequence.tenure.returned.1 returned) more).1

/-- The small service is started, and started again in vain; it handles a job and is shut down. -/
def onceAround : List Event :=
  .start :: .start :: List.map Event.turn (jobBegun ++ .call :: .proceed 0 :: .proceed 0 ::
    .proceed 0 :: .sweep 0 :: .proceed 0 :: .proceed 0 :: jobEnded ++ [.proceed 0, .proceed 0])

theorem lifecycle_of_onceAround :
    ∃ log e, (fresh smallService).Life sequential log e ∧
      log = [.started (.ok ()), .started (.error Service.alreadyRunning), .asked, .taken,
        .returned] ∧
      e.startAnswer = .error .cancelled ∧ e.service.isReady = false ∧
      ∀ log' e', e.Life sequential log' e' → e'.pipeline = e.pipeline := by
  have plain : ∀ event ∈ onceAround, event.Plain := by
    simp [onceAround, jobBegun, jobEnded, creating, workSlowly, Event.Plain, simulated_plain]
  have life : (fresh smallService).Life sequential _ _ := .of_live plain .refl rfl
  obtain ⟨start, -, -, -, ready, still⟩ := lifecycle smallService_built life
  refine ⟨_, _, life, rfl, start rfl, ?_, still (by decide)⟩
  rw [← Bool.not_eq_true, ready]
  exact fun h => absurd (h.2 .returned List.mem_cons_self) (by decide)

end Stage
end JobPipeline
