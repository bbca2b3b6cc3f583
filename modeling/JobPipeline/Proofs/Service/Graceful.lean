import JobPipeline.Proofs.Service.Overlap

/-!
# A graceful shutdown

One shutdown of a running service, while the workers, the sweeper and the creations under way make
their steps in any order. If its grace does not run out, then the ids that were buffered when it
closed the queue have gone to the workers, one by one and each to one worker, and nothing that a
worker has claimed is left unreported (`graceful_shutdown_drains`).

A `Passage` is a run through the shutdown, taken apart at the two moments that matter: when
creations are stopped, and when the queue is closed. From the first on no id comes into the store,
and from the second on the ids in the queue only get fewer (`Floor.Clearing`).
-/

namespace JobPipeline

/-- Whether the shutdown has not closed the queue yet. -/
def Shutdown.early : Shutdown → Bool
  | .begun => true
  | .refusing => true
  | .holding _ => true
  | .awaitingSweeper _ => true
  | .closing _ => true
  | _ => false

theorem Token.isFired_append {t : Token} {more fired : List Token} (h : t.isFired fired = true) :
    t.isFired (more ++ fired) = true := by
  rw [isFired, List.any_append]
  exact Bool.or_eq_true_iff.2 (.inr h)

namespace Stage

/-- Nobody asks for another shutdown, and the one under way does not lose patience. -/
def alone (s : Stage) (turn : Turn) : Bool :=
  s.timely turn && match turn with
    | .call => false
    | _ => true

variable {ok : WorkResult → Prop} {s s' e : Stage} {log : Log} {turn : Turn}

/-- Only a shutdown changes itself. -/
theorem calls_of_alone (allows : s.alone turn = true) (hs : s.step turn = some s') :
    s'.calls = s.calls ∨ ∃ k call call' service, turn = .proceed k ∧ s.calls[k]? = some call ∧
      call.Advances s.service call' service ∧
      s' = { s with service, calls := s.calls.set k call' } := by
  cases turn with
  | call => simp [alone] at allows
  | proceed k =>
    obtain ⟨call, call', service, hk, hstep, rfl⟩ := step_proceed_iff.1 hs
    exact .inr ⟨k, call, call', service, rfl, hk, Shutdown.advances_of_step hstep, rfl⟩
  | work i exec =>
    obtain ⟨_, _, _, _, _, _, _, _, calls, _⟩ := step_work hs
    exact .inl calls
  | sweep i =>
    obtain ⟨_, _, _, _, _, _, _, _, calls, _⟩ := step_sweep hs
    exact .inl calls
  | create k =>
    obtain ⟨_, _, _, _, _, _, _, _, calls, _⟩ := step_create hs
    exact .inl calls
  | request id now r => cases hs; exact .inl rfl
  | wait ms => cases hs; exact .inl rfl

/-- A shutdown that is alone has nobody to overtake. -/
theorem inTurn_of_alone (single : s.calls.length = 1) (turn : Turn) : s.inTurn turn = true := by
  cases turn with
  | proceed k =>
    simp only [inTurn]
    split
    · rename_i hk
      obtain ⟨call, hcalls⟩ := List.length_eq_one_iff.1 single
      rw [hcalls] at hk ⊢
      have hcall := List.mem_singleton.1 (List.mem_of_getElem? hk)
      rw [← hcall]; rfl
    · rfl
  | _ => rfl

/-- Once creations are stopped no turn stores a new job. -/
theorem Guarded.moves_refusing (h : s.Guarded ok) (refusing : s.world.isFired .accepting = true)
    (yields : turn.Yields ok) (hs : s.step turn = some s') :
    s.floor.Moves ok true (s'.news turn) s'.floor := by
  obtain ⟨moves, -⟩ := h.moves yields hs
  rwa [Service.isAccepting, show s.service.world.isFired .accepting = true from refusing] at moves

namespace Run

/-- A run with one shutdown is an orderly one. -/
theorem orderly_of_alone (run : s.Run ok alone log e) (single : s.calls.length = 1) :
    s.Run ok orderly log e ∧ e.calls.length = 1 := by
  induction run with
  | refl => exact ⟨.refl, single⟩
  | @tail log t t' turn run yields allows step ih =>
    obtain ⟨orderly, hlength⟩ := ih
    have timely : t.timely turn = true := by
      simp only [alone, Bool.and_eq_true] at allows; exact allows.1
    refine ⟨orderly.tail yields ?_ step, ?_⟩
    · rw [Stage.orderly, timely, inTurn_of_alone hlength]; rfl
    · rcases calls_of_alone allows step with hcalls | ⟨k, call, call', service, -, -, -, rfl⟩
      · rw [hcalls]; exact hlength
      · rw [List.length_set]; exact hlength

/-- Tokens stay fired. -/
theorem isFired (run : s.Run ok orderly log e) (h : s.Guarded ok) {t : Token}
    (fired : s.world.isFired t = true) : e.world.isFired t = true := by
  induction run with
  | refl => exact fired
  | tail run yields _ step ih =>
    obtain ⟨-, more, hmore⟩ := (run.guarded h).moves yields step
    rw [World.isFired, hmore]
    exact Token.isFired_append ih

/-- Nobody hires or dismisses. -/
theorem staff (run : s.Run ok orderly log e) (h : s.Guarded ok) :
    e.tasks.length = s.tasks.length := by
  induction run with
  | refl => rfl
  | tail run yields _ step ih =>
    have hlength := ((run.guarded h).moves yields step).1.length
    simp only [floor, List.length_map] at hlength
    exact hlength.trans ih

/-- Once creations are stopped the ids stay the same. -/
theorem ids (run : s.Run ok orderly log e) (h : s.Guarded ok)
    (refusing : s.world.isFired .accepting = true) : e.store.ids = s.store.ids := by
  induction run with
  | refl => rfl
  | tail run yields _ step ih =>
    exact ((run.guarded h).moves_refusing (run.isFired h refusing) yields step).ids.trans ih

/-- From the closing of the queue on the books are kept. -/
theorem clearing (run : s.Run ok orderly log e) (h : s.Guarded ok)
    (refusing : s.world.isFired .accepting = true) (closed : s.queue.isOpen = false) :
    s.floor.Clearing ok log e.floor := by
  induction run with
  | refl => exact .refl closed
  | tail run yields _ step ih =>
    exact ih.step ((run.guarded h).moves_refusing (run.isFired h refusing) yields step)

end Run

/-! ## The two moments of a shutdown -/

/-- A run through one shutdown, taken apart where creations are stopped and where the queue is
closed.

  * `asked`, `refusing` — the stage before and after creations are stopped.
  * `ready`, `closed`   — the stage before and after the queue is closed.
  * `since`             — what has been logged since. -/
structure Passage (ok : WorkResult → Prop) (s : Stage) (log : Log) (e : Stage) where
  before : Log
  asked : Stage
  refusing : Stage
  between : Log
  ready : Stage
  closed : Stage
  since : Log
  toAsked : s.Run ok alone before asked
  asks : asked.calls = [.begun]
  refuses : asked.step (.proceed 0) = some refusing
  toReady : refusing.Run ok alone between ready
  isReady : ∃ workers, ready.calls = [.closing workers]
  closes : ready.step (.proceed 0) = some closed
  toEnd : closed.Run ok alone since e
  logged : log = before ++ between ++ since

/-- The turn at which a shutdown that is alone gets somewhere is its own. -/
theorem proceed_of_changed {call : Shutdown} (calls : s.calls = [call])
    (allows : s.alone turn = true) (hs : s.step turn = some s') (changed : s'.calls ≠ [call]) :
    turn = .proceed 0 ∧ ∃ call' service, call.Advances s.service call' service ∧
      s' = { s with service, calls := [call'] } := by
  rcases calls_of_alone allows hs with hsame | ⟨k, c, call', service, rfl, hk, advances, rfl⟩
  · exact absurd (hsame.trans calls) changed
  · rw [calls] at hk
    have hlt := (List.getElem?_eq_some_iff.1 hk).1
    obtain rfl : k = 0 := by simpa using hlt
    obtain rfl : call = c := by simpa using hk
    exact ⟨rfl, call', service, advances, by rw [calls]; rfl⟩

/-- Every run through a shutdown passes the two moments. -/
theorem Run.exists_passage (run : s.Run ok alone log e) (calls : s.calls = [.begun])
    (returned : e.calls = [.returned]) : Nonempty (Passage ok s log e) := by
  have unasked : ¬ e.calls = [.begun] := by rw [returned]; exact nofun
  obtain ⟨before, a, turn, b, after, toAsked, asks, -, allows, hs, hb, more, rfl⟩ :=
    run.crossing (P := fun t => t.calls = [.begun]) calls unasked
  obtain ⟨rfl, call', service, advances, rfl⟩ := proceed_of_changed asks allows hs hb
  cases advances
  have late : ¬ ∃ call, e.calls = [call] ∧ call.early = true := by
    rintro ⟨call, hcalls, hearly⟩
    rw [returned] at hcalls
    cases hcalls
    cases hearly
  obtain ⟨between, c, turn, d, since, toReady, ⟨call, hcall, early⟩, -, allows', hs', hd, toEnd,
    rfl⟩ := more.crossing (P := fun t => ∃ call, t.calls = [call] ∧ call.early = true)
      ⟨.refusing, rfl, rfl⟩ late
  have changed : d.calls ≠ [call] := fun hsame => hd ⟨call, hsame, early⟩
  obtain ⟨rfl, call', service, advances, rfl⟩ := proceed_of_changed hcall allows' hs' changed
  have isReady : ∃ workers, c.calls = [.closing workers] := by
    cases advances with
    | shut => exact ⟨_, hcall⟩
    | close workers => exact ⟨_, hcall⟩
    | drained => cases early
    | expire => cases early
    | joined => cases early
    | mark => cases early
    | _ => exact absurd ⟨_, rfl, rfl⟩ hd
  exact ⟨⟨before, a, _, between, c, _, since, toAsked, asks, hs, toReady, isReady, hs', toEnd,
    by simp [news]⟩⟩

namespace Passage

theorem refusing_isFired (m : Passage ok s log e) :
    m.refusing.world.isFired .accepting = true := by
  obtain ⟨call, call', service, hk, hstep, h⟩ := step_proceed_iff.1 m.refuses
  rw [m.asks] at hk
  cases hk
  cases hstep
  rw [h, show (_ : Stage).world = m.asked.world.fire .accepting from rfl, World.isFired_fire]
  rfl

theorem closed_isOpen (m : Passage ok s log e) : m.closed.queue.isOpen = false := by
  obtain ⟨workers, hready⟩ := m.isReady
  obtain ⟨call, call', service, hk, hstep, h⟩ := step_proceed_iff.1 m.closes
  rw [hready] at hk
  cases hk
  rw [h]
  cases workers <;> (cases hstep; rfl)

/-- What a graceful shutdown has done when it returns.

  * `ended`, `empty` — the queue is closed, and nothing is left in it.
  * `handed`         — the entries buffered at the closing went to the workers, in order and each to
    one of them, and nothing else did.
  * `reported`       — no job that a worker has claimed is still processing.
  * `claimed`        — every pending job whose id was buffered at the closing has been claimed
    since.
  * `ids`            — the stored ids are those of the moment at which creations were stopped.
  * `completed`      — if workloads only succeed, every pending job whose id was buffered at the
    closing, and every job that was claimed and unreported then, is completed. -/
structure Drained (m : Passage ok s log e) : Prop where
  ended : e.queue.isOpen = false
  empty : e.queue.buffer = []
  handed : (handed m.since).map Prod.snd = m.closed.queue.buffer
  reported : ∀ id, s.floor.Holds id ∨ id ∈ claimed log → e.store.status? id ≠ some .processing
  claimed : ∀ id ∈ m.closed.queue.buffer, m.closed.store.status? id = some .pending →
    id ∈ claimed m.since
  ids : e.store.ids = m.refusing.store.ids
  completed : (∀ r, ok r → r = .success) → ∀ id,
    (id ∈ m.closed.queue.buffer ∧ m.closed.store.status? id = some .pending) ∨
      m.closed.floor.Working id → e.store.status? id = some .completed

end Passage

/-- **A graceful shutdown drains the queue.** Whatever the state of a running service, and whatever
the order in which its workers, its sweeper and the creations under way make their steps: a shutdown
whose grace does not run out leaves the queue closed and empty, has every buffered entry handed to
one worker, and no claimed job unreported; and where workloads only succeed, all that was due is
completed. -/
theorem graceful_shutdown_drains (running : s.Running ok) (calls : s.calls = [.begun])
    (run : s.Run ok alone log e) (returned : e.calls = [.returned]) :
    ∃ m : Passage ok s log e, m.Drained := by
  obtain ⟨m⟩ := run.exists_passage calls returned
  have begun : ∀ call ∈ s.calls, call = .begun := by simp [calls]
  have start := running.guarded begun
  have single : s.calls.length = 1 := by rw [calls]; rfl
  have allowsRefusing : m.asked.alone (.proceed 0) = true := by simp [alone, timely, m.asks]
  have allowsClosing : m.ready.alone (.proceed 0) = true := by
    obtain ⟨workers, hready⟩ := m.isReady
    simp [alone, timely, hready]
  have yields : (Turn.proceed 0).Yields ok := trivial
  -- The run up to each of the two moments, and from each of them on.
  have toRefusing := m.toAsked.tail yields allowsRefusing m.refuses
  have fromRefusing := m.toReady.tail yields allowsClosing m.closes
  obtain ⟨toClosed, singleClosed⟩ := (toRefusing.trans fromRefusing).orderly_of_alone single
  obtain ⟨toRefusing, singleRefusing⟩ := toRefusing.orderly_of_alone single
  obtain ⟨fromRefusing, -⟩ := fromRefusing.orderly_of_alone singleRefusing
  obtain ⟨fromClosed, -⟩ := m.toEnd.orderly_of_alone singleClosed
  obtain ⟨run, -⟩ := run.orderly_of_alone single
  have guardedRefusing := toRefusing.guarded start
  have guardedClosed := toClosed.guarded start
  have guarded := run.guarded start
  have home : e.Home := guarded.settled (by rw [returned]; exact List.mem_singleton_self _)
  obtain ⟨empty, ended⟩ : e.queue.buffer = [] ∧ e.queue.isOpen = false := by
    have hlength := run.staff start
    obtain ⟨t, ht⟩ := List.exists_mem_of_length_pos (l := e.tasks)
      (by rw [hlength]; exact List.length_pos_iff.2 running.staffed)
    exact guarded.quit t ht (home t ht)
  have clearing := fromClosed.clearing guardedClosed
    (fromRefusing.isFired guardedRefusing m.refusing_isFired) m.closed_isOpen
  obtain ⟨handed, claimed, completed⟩ := clearing.of_deserted home.deserted empty
  refine ⟨m, ended, empty, handed, ?_, ?_, ?_, ?_⟩
  · -- reported
    intro id hclaimed processing
    exact home.deserted.not_holds id (run.released start id hclaimed processing)
  · -- claimed
    intro id buffered pending
    exact claimed id ⟨pending, .inl buffered⟩
  · -- ids
    exact (fromClosed.ids guardedClosed
      (fromRefusing.isFired guardedRefusing m.refusing_isFired)).trans
      (fromRefusing.ids guardedRefusing m.refusing_isFired)
  · -- completed
    intro success id due
    refine completed success id ?_
    rcases due with ⟨buffered, pending⟩ | working
    · exact .inl ⟨pending, .inl buffered⟩
    · exact .inr working

/-- The small service with one shutdown that has been asked for. -/
def onceAsked : Stage := ⟨smallStarted, [.begun], []⟩

/-- The worker's next move, with workloads that take some time and succeed. -/
def workWell : Turn := .work 0 fun _ => ⟨[], 50, .result .success, false⟩

/-- One job is worked on and one is buffered when the shutdown comes, and it waits for both. -/
theorem small_service_drains :
    ∃ log e, onceAsked.Run (· = .success) alone log e ∧ e.calls = [.returned] ∧
      handed log = [(0, ⟨"a"⟩), (0, ⟨"b"⟩)] ∧
      ∃ m : Passage (· = .success) onceAsked log e, m.Drained := by
  let shutting : List Turn :=
    [.proceed 0, .proceed 0, .proceed 0, .sweep 0, .proceed 0, .proceed 0]
  let working : List Turn := List.replicate 4 workWell
  let turns : List Turn := creating ⟨"a"⟩ 0 ++ working ++ creating ⟨"b"⟩ 1 ++ shutting ++
    .wait 50 :: working ++ working ++ .wait 50 :: working ++ [workWell, .proceed 0, .proceed 0]
  have yields : ∀ turn ∈ turns, turn.Yields (· = .success) := by
    simp [turns, creating, shutting, working, workWell, Turn.Yields, Executor.Yields]
  have run : onceAsked.Run (· = .success) alone _ _ := .of_play yields .refl rfl
  have running : onceAsked.Running (· = .success) :=
    running_of_start smallService_start rfl rfl (by decide) _
  exact ⟨_, _, run, rfl, rfl, graceful_shutdown_drains running rfl run rfl⟩

end Stage
end JobPipeline
