import JobPipeline.Proofs.Store.Records
import JobPipeline.Sweeper.Sweep

/-!
# A sweep from its first operation to its last

Nobody else touches the parts, but the stop signal may fire between any two operations
(`Sweep.runUnder`). Up to the first offer the signal is looked at only once, so all sweeps that get
past the recovery come to the same point (`iterate_to_offering`): every lapsed record is pending
again, and the ledger is told of each. What is left is the loop over the pending ids, which
`iterate_offering` and `iterate_offering_closed` take by induction.
-/

namespace JobPipeline

theorem iterate_succ {σ : Type} {step : σ → Option σ} {s t : σ} (h : step s = some t) (fuel : Nat) :
    iterate step (fuel + 1) s = iterate step fuel t := by
  simp only [iterate, h]

theorem iterate_of_none {σ : Type} {step : σ → Option σ} {s : σ} (h : step s = none) (fuel : Nat) :
    iterate step fuel s = s := by
  cases fuel with
  | zero => rfl
  | succ fuel => simp only [iterate, h]

namespace Ledger

/-- The counters after `n` jobs have been sent back. -/
def credited (l : Ledger) (n : Nat) : Ledger :=
  { l with
    retried := l.retried + .ofNat n
    failed := .ofNat (l.failed.toNat - min n l.failed.toNat) }

variable (l : Ledger)

theorem credited_zero : l.credited 0 = l := by
  simp [credited]

theorem credited_record (n : Nat) : (l.record .retried).credited n = l.credited (n + 1) := by
  have retried : l.retried + 1 + .ofNat n = l.retried + .ofNat (n + 1) := by
    rw [UInt64.add_assoc, UInt64.add_comm 1, UInt64.ofNat_add]; rfl
  have less : (saturatingPred l.failed).toNat = l.failed.toNat - 1 := by
    unfold saturatingPred
    split
    · rename_i none; rw [none]; rfl
    · rename_i some
      have : l.failed.toNat ≠ 0 := fun h => some (UInt64.toNat_inj.1 h)
      exact UInt64.toNat_sub_of_le _ _ (UInt64.le_iff_toNat_le.2 (Nat.one_le_iff_ne_zero.2 this))
  have failed : (saturatingPred l.failed).toNat - min n (saturatingPred l.failed).toNat =
      l.failed.toNat - min (n + 1) l.failed.toNat := by omega
  simp only [credited, record, retried, failed]

end Ledger

namespace Sweep

/-- One operation of a sweep, and the number of operations so far. `fired` tells whether the stop
signal has fired by then. -/
def tick (fired : Nat → Bool) (x : Nat × Sweep × Pipeline) : Option (Nat × Sweep × Pipeline) :=
  (x.2.1.step (fired x.1) x.2.2).map fun y => (x.1 + 1, y)

/-- A sweep over parts that nobody else touches, under a stop signal that may fire on the way. -/
def runUnder (fired : Nat → Bool) (p : Pipeline) : SweepReport × Pipeline :=
  let (_, sweep, p) := iterate (tick fired) (bound p) (0, .recovering, p)
  (sweep.report, p)

theorem iterate_tick_const (stopped : Bool) (fuel t : Nat) (x : Sweep × Pipeline) :
    (iterate (tick fun _ => stopped) fuel (t, x)).2 =
      iterate (fun (s, p) => s.step stopped p) fuel x := by
  induction fuel generalizing t x with
  | zero => rfl
  | succ fuel ih =>
    cases h : x.1.step stopped x.2 with
    | none =>
      have hs : tick (fun _ => stopped) (t, x) = none := by simp only [tick, h, Option.map_none]
      rw [iterate_of_none hs, iterate_of_none h]
    | some y =>
      have hs : tick (fun _ => stopped) (t, x) = some (t + 1, y) := by
        simp only [tick, h, Option.map_some]
      rw [iterate_succ hs, iterate_succ h, ih]

/-- A signal that does not change while the sweep is under way. -/
theorem run_eq_runUnder (stopped : Bool) (p : Pipeline) :
    run stopped p = runUnder (fun _ => stopped) p := by
  have h := iterate_tick_const stopped (bound p) 0 (.recovering, p)
  simp only [run, runUnder, ← h]

variable {fired : Nat → Bool}

/-- The credits take one operation each, and one more to see that none is left. -/
theorem iterate_crediting (n : Nat) (report : SweepReport) (p : Pipeline) (t fuel : Nat) :
    iterate (tick fired) (n + 1 + fuel) (t, .crediting n report, p) =
      iterate (tick fired) fuel
        (t + n + 1, .listing report, { p with ledger := p.ledger.credited n }) := by
  induction n generalizing p t with
  | zero =>
    have hs : tick fired (t, .crediting 0 report, p) = some (t + 1, .listing report, p) := rfl
    rw [Nat.zero_add, Nat.add_comm, iterate_succ hs, Ledger.credited_zero, Nat.add_zero]
  | succ n ih =>
    have hs : tick fired (t, .crediting (n + 1) report, p) =
        some (t + 1, .crediting n report, p.record .retried) := rfl
    have hfuel : n + 1 + 1 + fuel = (n + 1 + fuel) + 1 := by omega
    have htime : t + 1 + n + 1 = t + (n + 1) + 1 := by omega
    have hledger : (p.record .retried).ledger.credited n = p.ledger.credited (n + 1) :=
      p.ledger.credited_record n
    rw [hfuel, iterate_succ hs, ih, hledger, htime]
    rfl

/-- The offers under a signal that fires after `tries` of them, or not at all if there are no
more: they fill the queue as far as it has places. -/
theorem iterate_offering (ids : List JobId) (report : SweepReport) (p : Pipeline)
    (isOpen : p.queue.isOpen = true) {tries : Nat} (within : tries ≤ ids.length) {t : Nat}
    (firing : ∀ i < ids.length, fired (t + i) = decide (tries ≤ i)) {fuel : Nat}
    (enough : ids.length < fuel) :
    let taken := min tries (p.queue.capacity - p.queue.buffer.length)
    ∃ t', iterate (tick fired) fuel (t, .offering ids report, p) =
      (t', .done { report with
          offered := report.offered + taken
          dropped := report.dropped + (tries - taken)
          interrupted := report.interrupted || decide (tries < ids.length) },
        { p with queue := { p.queue with buffer := p.queue.buffer ++ ids.take taken } }) := by
  induction ids generalizing report p tries t fuel with
  | nil =>
    obtain ⟨fuel, rfl⟩ : ∃ k, fuel = k + 1 := ⟨fuel - 1, by have := Nat.zero_lt_of_lt enough; omega⟩
    obtain rfl : tries = 0 := Nat.le_zero.1 within
    have hs : tick fired (t, .offering [] report, p) = some (t + 1, .done report, p) := rfl
    have hdone : tick fired (t + 1, .done report, p) = none := rfl
    refine ⟨t + 1, ?_⟩
    rw [iterate_succ hs, iterate_of_none hdone]
    simp
  | cons id ids ih =>
    obtain ⟨fuel, rfl⟩ : ∃ k, fuel = k + 1 := ⟨fuel - 1, by omega⟩
    have now : fired t = decide (tries = 0) := by
      rw [← Nat.add_zero t, firing 0 (Nat.succ_pos _)]; simp
    cases tries with
    | zero =>
      have hs : tick fired (t, .offering (id :: ids) report, p) =
          some (t + 1, .done { report with interrupted := true }, p) := by
        simp [tick, step, now]
      have hdone : tick fired (t + 1, .done { report with interrupted := true }, p) = none := rfl
      refine ⟨t + 1, ?_⟩
      rw [iterate_succ hs, iterate_of_none hdone]
      simp
    | succ tries =>
      have unfired : fired t = false := now
      have enough' : ids.length < fuel := by simpa using enough
      have within' : tries ≤ ids.length := by simpa using within
      have firing' (i : Nat) (hi : i < ids.length) : fired (t + 1 + i) = decide (tries ≤ i) := by
        have later := firing (i + 1) (by simpa using hi)
        simpa only [Nat.add_right_comm, Nat.add_assoc, Nat.add_comm 1, Nat.add_le_add_iff_right]
          using later
      by_cases room : p.queue.buffer.length < p.queue.capacity
      · obtain ⟨t', h⟩ := ih { report with offered := report.offered + 1 }
          { p with queue := { p.queue with buffer := p.queue.buffer ++ [id] } } isOpen within'
          firing' enough'
        have hs : tick fired (t, .offering (id :: ids) report, p) =
            some (t + 1, .offering ids { report with offered := report.offered + 1 },
              { p with queue := { p.queue with buffer := p.queue.buffer ++ [id] } }) := by
          simp [tick, step, unfired, Pipeline.offer, Queue.offer, isOpen, room]
        have taken : min (tries + 1) (p.queue.capacity - p.queue.buffer.length) =
            min tries (p.queue.capacity - (p.queue.buffer ++ [id]).length) + 1 := by
          rw [List.length_append, List.length_singleton]; omega
        refine ⟨t', ?_⟩
        rw [iterate_succ hs, h]
        simp only [taken, List.take_succ_cons, List.append_assoc, List.singleton_append,
          List.length_cons, Nat.add_lt_add_iff_right, Nat.add_sub_add_right, Nat.add_assoc,
          Nat.add_comm 1]
      · obtain ⟨t', h⟩ := ih { report with dropped := report.dropped + 1 } p isOpen within' firing'
          enough'
        have hs : tick fired (t, .offering (id :: ids) report, p) =
            some (t + 1, .offering ids { report with dropped := report.dropped + 1 }, p) := by
          simp [tick, step, unfired, Pipeline.offer, Queue.offer, isOpen, room]
        have full : p.queue.capacity - p.queue.buffer.length = 0 := by omega
        refine ⟨t', ?_⟩
        rw [iterate_succ hs, h]
        simp only [full, Nat.min_zero, List.take_zero, List.length_cons, Nat.add_lt_add_iff_right,
          Nat.sub_zero, Nat.add_assoc, Nat.add_comm 1]

/-- The first offer to a closed queue is the last, unless the signal is seen before. -/
theorem iterate_offering_closed (fired : Nat → Bool) (ids : List JobId) (report : SweepReport)
    (p : Pipeline) (closed : p.queue.isOpen = false) (t : Nat) {fuel : Nat} (enough : 1 < fuel) :
    ∃ t', iterate (tick fired) fuel (t, .offering ids report, p) =
      (t', .done { report with interrupted := report.interrupted || decide (ids ≠ []) }, p) := by
  obtain ⟨fuel, rfl⟩ : ∃ k, fuel = k + 1 := ⟨fuel - 1, by omega⟩
  have hdone (report : SweepReport) : tick fired (t + 1, .done report, p) = none := rfl
  refine ⟨t + 1, ?_⟩
  cases ids with
  | nil =>
    have hs : tick fired (t, .offering [] report, p) = some (t + 1, .done report, p) := rfl
    rw [iterate_succ hs, iterate_of_none (hdone _)]
    simp
  | cons id ids =>
    have hs : tick fired (t, .offering (id :: ids) report, p) =
        some (t + 1, .done { report with interrupted := true }, p) := by
      cases seen : fired t <;> simp [tick, step, seen, Pipeline.offer, Queue.offer, closed]
    rw [iterate_succ hs, iterate_of_none (hdone _)]
    simp

end Sweep

theorem Store.length_listPending (s : Store) : s.listPending.length = s.count .pending := by
  simp [listPending, listWhere, count, List.countP_eq_length_filter]

namespace Sweep

variable {fired : Nat → Bool} {p : Pipeline} {ids : List JobId}

/-- What a sweep has done when it comes to its offers: one operation recovers, then the credits are
paid, and one operation lists. -/
theorem iterate_to_offering (unfired : fired 0 = false)
    (pending : p.store.swept.listPending.map Job.id = ids) :
    let n := p.store.entries.countP fun e => e.job.lapsed
    ∃ fuel, ids.length < fuel ∧ 1 < fuel ∧
      iterate (tick fired) (bound p) (0, .recovering, p) =
        iterate (tick fired) fuel (n + 3, .offering ids { recovered := n },
          ⟨p.store.swept, p.queue, p.ledger.credited n⟩) := by
  intro n
  subst pending
  have hn : n ≤ p.store.size := List.countP_le_length
  have hids : (p.store.swept.listPending.map Job.id).length ≤ p.store.size := by
    rw [List.length_map, Store.length_listPending, ← Store.size_swept]; exact List.countP_le_length
  have hrecover : tick fired (0, .recovering, p) =
      some (1, .crediting n { recovered := n }, { p with store := p.store.swept }) := by
    simp only [tick, step, unfired, Store.recoverEligible_eq]; rfl
  have hlist : tick fired (1 + n + 1, .listing { recovered := n },
        ⟨p.store.swept, p.queue, p.ledger.credited n⟩) =
      some (n + 3, .offering (p.store.swept.listPending.map Job.id) { recovered := n },
        ⟨p.store.swept, p.queue, p.ledger.credited n⟩) := by
    have : 1 + n + 1 + 1 = n + 3 := by omega
    simp only [tick, step, this]; rfl
  refine ⟨2 * p.store.size + 2 - n, by omega, by omega, ?_⟩
  have hfuel : bound p = (n + 1 + (2 * p.store.size + 2 - n + 1)) + 1 := by
    simp only [bound]; omega
  rw [hfuel, iterate_succ hrecover, iterate_crediting, iterate_succ hlist]

/-- A sweep of an open queue under a signal that fires after `tries` offers, or not at all if there
are no more. -/
theorem runUnder_eq (unfired : fired 0 = false) (isOpen : p.queue.isOpen = true)
    (pending : p.store.swept.listPending.map Job.id = ids) {tries : Nat}
    (within : tries ≤ ids.length)
    (firing : ∀ i < ids.length,
      fired ((p.store.entries.countP fun e => e.job.lapsed) + 3 + i) = decide (tries ≤ i)) :
    let n := p.store.entries.countP fun e => e.job.lapsed
    let taken := min tries (p.queue.capacity - p.queue.buffer.length)
    runUnder fired p =
      ({ recovered := n, offered := taken, dropped := tries - taken,
         interrupted := decide (tries < ids.length) },
       ⟨p.store.swept, { p.queue with buffer := p.queue.buffer ++ ids.take taken },
        p.ledger.credited n⟩) := by
  intro n taken
  obtain ⟨fuel, enough, -, start⟩ := iterate_to_offering unfired pending
  obtain ⟨t, finish⟩ := iterate_offering ids { recovered := n }
    ⟨p.store.swept, p.queue, p.ledger.credited n⟩ isOpen within firing enough
  simp only [runUnder, start.trans finish, report, Nat.zero_add, Bool.false_or]
  rfl

/-- A sweep of a closed queue recovers and credits, and offers nothing. -/
theorem runUnder_closed (unfired : fired 0 = false) (closed : p.queue.isOpen = false)
    (pending : p.store.swept.listPending.map Job.id = ids) :
    let n := p.store.entries.countP fun e => e.job.lapsed
    runUnder fired p = ({ recovered := n, interrupted := decide (ids ≠ []) },
      ⟨p.store.swept, p.queue, p.ledger.credited n⟩) := by
  intro n
  obtain ⟨fuel, -, enough, start⟩ := iterate_to_offering unfired pending
  obtain ⟨t, finish⟩ := iterate_offering_closed fired ids { recovered := n }
    ⟨p.store.swept, p.queue, p.ledger.credited n⟩ closed (n + 3) enough
  simp only [runUnder, start.trans finish, report, Bool.false_or]

/-- A sweep under a signal that has fired does nothing. -/
theorem runUnder_fired (hfired : fired 0 = true) (p : Pipeline) :
    runUnder fired p = ({ interrupted := true }, p) := by
  have hs : tick fired (0, .recovering, p) = some (1, .done { interrupted := true }, p) := by
    simp [tick, step, hfired, Store.recoverEligible]
  have hdone : tick fired (1, .done { interrupted := true }, p) = none := rfl
  simp only [runUnder, bound, iterate_succ hs, iterate_of_none hdone, report]

/-- A sweep of an open queue that nothing interrupts. -/
theorem run_open (isOpen : p.queue.isOpen = true)
    (pending : p.store.swept.listPending.map Job.id = ids) :
    let n := p.store.entries.countP fun e => e.job.lapsed
    let taken := min ids.length (p.queue.capacity - p.queue.buffer.length)
    run false p =
      ({ recovered := n, offered := taken, dropped := ids.length - taken, interrupted := false },
       ⟨p.store.swept, { p.queue with buffer := p.queue.buffer ++ ids.take taken },
        p.ledger.credited n⟩) := by
  have whole : runUnder (fun _ => false) p = _ :=
    runUnder_eq rfl isOpen pending (Nat.le_refl _) fun i hi =>
      (decide_eq_false (Nat.not_le.2 hi)).symm
  rw [run_eq_runUnder, whole, decide_eq_false (Nat.lt_irrefl _)]

/-- **What a sweep of an open queue does.** -/
theorem run_eq (isOpen : p.queue.isOpen = true) :
    (Sweep.run false p).2.store = p.store.swept ∧
      (Sweep.run false p).2.queue = { p.queue with
        buffer := p.queue.buffer ++
          (p.store.swept.listPending.map Job.id).take
            (p.queue.capacity - p.queue.buffer.length) } := by
  rw [run_open isOpen rfl]
  refine ⟨rfl, ?_⟩
  rw [Nat.min_comm, ← List.take_eq_take_min]

end Sweep
end JobPipeline
