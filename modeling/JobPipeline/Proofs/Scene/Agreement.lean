import JobPipeline.Proofs.Scene.Accounts
import Mathlib

/-!
# The ledger agrees with the store

Store and ledger are updated one after the other, by many actors in any order. In between, the
ledger differs from the store by exactly what the actors still owe it: for each `Counter`, the
reading plus the changes owed is the figure of the store (`Scene.Balanced.even`).

A reading that goes down must not be zero. Three inequalities see to that: claims that the ledger
does not know of are of records that are processing, exhaustions that it does not know of are of
records that have failed for good, and sweeps do not owe more credits than there are records. So
whenever nobody owes the ledger anything, its counters are the figures of the store
(`ledger_agrees_with_store`).

A counter that goes up must have room. It is bounded by the records and the actors that owe it a
call, so it has, as long as these fit into a process at all (`Scene.Fits`).
-/

namespace JobPipeline

open Ledger (changes)

/-- The ledger shows the figures of the store. -/
structure Pipeline.Agrees (p : Pipeline) : Prop where
  created : p.ledger.created.toNat = p.store.size
  completed : p.ledger.completed.toNat = p.store.count .completed
  failed : p.ledger.failed.toNat = p.store.count .failed
  inProgress : p.ledger.inProgress.toNat = p.store.count .processing

theorem Pipeline.agrees_iff {p : Pipeline} :
    p.Agrees ↔ ∀ c, (p.ledger.reading c).toNat = p.store.figure c := by
  constructor
  · rintro ⟨created, completed, failed, inProgress⟩ c
    cases c with
    | created => rw [Store.size_eq_total] at created; exact created
    | completed => rw [Store.count_eq_total] at completed; exact completed
    | failed => rw [Store.count_eq_total] at failed; exact failed
    | inProgress => rw [Store.count_eq_total] at inProgress; exact inProgress
  · intro h
    refine ⟨?_, ?_, ?_, ?_⟩
    · rw [Store.size_eq_total]; exact h .created
    · rw [Store.count_eq_total]; exact h .completed
    · rw [Store.count_eq_total]; exact h .failed
    · rw [Store.count_eq_total]; exact h .inProgress

theorem Store.figure_le_size (s : Store) (c : Counter) : s.figure c ≤ s.size := by
  rw [Store.size_eq_total]
  apply Store.total_le_total
  intro job
  cases c with
  | created => exact Nat.le_refl 1
  | _ => exact Bool.toNat_le _

theorem Store.spent_le_figure (s : Store) :
    (s.total fun job => job.spent.toNat) ≤ s.figure .failed := by
  apply Store.total_le_total
  intro job
  by_cases h : job.status = .failed
  · simp only [Counter.weight, h, decide_true]; exact Bool.toNat_le _
  · simp [Job.spent, h]

namespace Scene

def sum (f : Actor → Int) (s : Scene) : Int := (s.actors.map f).sum

theorem sum_le_sum {f g : Actor → Int} {s : Scene} (h : ∀ a, f a ≤ g a) : s.sum f ≤ s.sum g :=
  List.sum_le_sum fun a _ => h a

theorem sum_lt_sum {f g : Actor → Int} {s : Scene} (h : ∀ a, f a ≤ g a) {a : Actor}
    (ha : a ∈ s.actors) (hlt : f a < g a) : s.sum f < s.sum g :=
  List.sum_lt_sum _ _ (fun a _ => h a) ⟨a, ha, hlt⟩

theorem sum_neg (f : Actor → Int) (s : Scene) : (s.sum fun a => -f a) = -s.sum f := by
  rw [sum, sum, List.sum_neg, List.map_map]; rfl

def owing (s : Scene) : Nat := s.actors.countP fun a => a.owed ≠ []

theorem owing_eq_sum (s : Scene) :
    (s.owing : Int) = s.sum fun a => (decide (a.owed ≠ [])).toNat := by
  simp only [owing, sum]
  induction s.actors with
  | nil => rfl
  | cons a as ih =>
    rw [List.countP_cons, List.map_cons, List.sum_cons, ← ih]
    by_cases h : a.owed = []
    · simp [h]
    · simp [h, add_comm]

/-- The records, and the actors that owe the ledger a call, are fewer than 2 ^ 63. No process has
room for more of them at one time. -/
def Fits (s : Scene) : Prop := s.store.size + s.owing < 2 ^ 63

instance (s : Scene) : Decidable s.Fits := inferInstanceAs (Decidable (_ < _))

end Scene

/-- What is lawful, in a scene that a process has room for. -/
def Action.fitting (s : Scene) (action : Action) : Bool := action.lawful s && s.Fits

theorem Action.fitting_iff {s : Scene} {action : Action} :
    action.fitting s = true ↔ action.lawful s = true ∧ s.Fits := by
  rw [fitting, Bool.and_eq_true, decide_eq_true_eq]

namespace Scene

/-- Nobody stands between an operation of the store and the call of the ledger that
belongs to it. -/
def Quiet (s : Scene) : Prop := ∀ a ∈ s.actors, a.owed = []

instance (s : Scene) : Decidable s.Quiet := inferInstanceAs (Decidable (∀ a ∈ s.actors, _))

/-- The books of a scene.

  * `even`     — reading and changes owed make the figure of the store.
  * `held`     — every record in somebody's hands is processing.
  * `spent`    — every exhaustion the ledger does not know of is of a record that failed for good.
  * `credited` — credits owed by sweeps and lapsed records are no more than the records. -/
structure Balanced (s : Scene) : Prop where
  distinct : s.store.Distinct
  even : ∀ c,
    ((s.ledger.reading c).toNat : Int) + s.sum (fun a => changes c a.owed) = s.store.figure c
  held : s.sum (fun a => a.holding.isSome.toNat) ≤ s.store.figure .inProgress
  spent : s.sum (fun a => a.owed.count (.failureReported false)) ≤
    (s.store.total fun job => job.spent.toNat : Nat)
  credited :
    s.sum (fun a => a.owed.count .retried) + (s.store.total fun job => job.lapsed.toNat : Nat) ≤
      s.store.size

namespace Balanced

variable {s s' : Scene}

/-! ## What balanced books say -/

/-- A reading is not zero if the changes owed do not account for the whole figure. -/
theorem reading_ne_zero (h : s.Balanced) {c : Counter}
    (hlt : s.sum (fun a => changes c a.owed) < s.store.figure c) :
    s.ledger.reading c ≠ 0 := by
  intro hzero
  have heven := h.even c
  rw [hzero, UInt64.toNat_zero] at heven
  omega

/-- **What an actor is about to tell the ledger takes no counter below zero.** -/
theorem sound (h : s.Balanced) {a : Actor} (ha : a ∈ s.actors) {e : Ledger.Event}
    {es : List Ledger.Event} (howed : a.owed = e :: es) : ¬ e.Underflows s.ledger := by
  have progress (hc : changes .inProgress a.owed < 0) : s.ledger.reading .inProgress ≠ 0 := by
    refine h.reading_ne_zero (Int.lt_of_lt_of_le ?_ h.held)
    exact sum_lt_sum Actor.changes_inProgress_le ha (by omega)
  have failures (hc : changes .failed a.owed < 0) : s.ledger.reading .failed ≠ 0 := by
    have hspent := s.store.spent_le_figure
    have hlt : s.sum (fun a => changes .failed a.owed) <
        s.sum fun a => a.owed.count (.failureReported false) :=
      sum_lt_sum Actor.changes_failed_le ha (by omega)
    have := h.spent
    exact h.reading_ne_zero (by omega)
  rcases a.owed_cases with h | ⟨h, -⟩ | h | ⟨retry, h⟩ | ⟨n, h⟩ | h <;> rw [howed] at h
  · cases h
  · cases h; exact id
  · cases h; exact progress (by simp [howed, Ledger.Event.change])
  · cases h; exact progress (by simp [howed, Ledger.Event.change])
  · cases n with
    | zero => cases h
    | succ n =>
      rw [List.replicate_succ] at h
      cases h
      refine failures ?_
      rw [howed, ← List.replicate_succ]
      simp [Ledger.Event.change]; omega
  · cases h; exact id

/-- Where all fits, there is room for one more in every counter. -/
theorem room (h : s.Balanced) (fits : s.Fits) (c : Counter) :
    (s.ledger.reading c).toNat + 1 < 2 ^ 64 := by
  have heven := h.even c
  have hfigure := s.store.figure_le_size c
  have hfits : s.store.size + s.owing < 2 ^ 63 := fits
  have hzero : s.sum (fun _ => 0) = 0 := by simp [sum]
  suffices -(s.store.size + s.owing : Int) ≤ s.sum fun a => changes c a.owed by omega
  cases c with
  | created =>
    have := sum_le_sum (s := s) Actor.changes_created_nonneg
    omega
  | completed =>
    have := sum_le_sum (s := s) Actor.changes_completed_nonneg
    omega
  | failed =>
    have hle := sum_le_sum (s := s) Actor.neg_count_le_changes_failed
    rw [sum_neg] at hle
    have := h.credited
    omega
  | inProgress =>
    have hle := sum_le_sum (s := s) Actor.neg_owing_le_changes_inProgress
    rw [sum_neg, ← owing_eq_sum] at hle
    omega

/-! ## Every action keeps the books balanced -/

/-- Books are balanced where nobody is at work and the counters are right. -/
theorem of_agrees {p : Pipeline} (distinct : p.store.Distinct) (agrees : p.Agrees) :
    (Scene.of p).Balanced where
  distinct := distinct
  even c := by
    have h := Pipeline.agrees_iff.1 agrees c
    simp [sum, Scene.of, h]
  held := by simp [sum, Scene.of]
  spent := by simp [sum, Scene.of]
  credited := by
    have hle : (p.store.total fun job => job.lapsed.toNat) ≤ p.store.total fun _ => 1 :=
      Store.total_le_total fun job => Bool.toNat_le _
    rw [← Store.size_eq_total] at hle
    simpa [sum, Scene.of] using hle

theorem enter (h : s.Balanced) {a : Actor} (hnew : a.isNewcomer = true) :
    ({ s with actors := s.actors ++ [a] } : Scene).Balanced := by
  obtain ⟨howed, hholding⟩ : a.owed = [] ∧ a.holding = none := by
    rcases Actor.newcomer_cases hnew with rfl | ⟨id, rfl⟩ | rfl | ⟨job, rfl⟩ <;> exact ⟨rfl, rfl⟩
  have hsum (f : Actor → Int) (hf : f a = 0) :
      ({ s with actors := s.actors ++ [a] } : Scene).sum f = s.sum f := by
    simp [sum, hf]
  refine ⟨h.distinct, ?_, ?_, ?_, ?_⟩
  · intro c; rw [hsum _ (by rw [howed]; rfl)]; exact h.even c
  · rw [hsum _ (by rw [hholding]; rfl)]; exact h.held
  · rw [hsum _ (by rw [howed]; rfl)]; exact h.spent
  · rw [hsum _ (by rw [howed]; rfl)]; exact h.credited

/-- A deed keeps the books balanced: it is booked with the actor, the store or the ledger. -/
theorem deed (h : s.Balanced) (fits : s.Fits) {i : Nat} {a a' : Actor} {d : Deed} {p : Pipeline}
    (ha : s.actors[i]? = some a) (hdoes : a.Does d a') (heffect : d.Effect s.pipeline p)
    (fresh : d.Fresh s.store) :
    Balanced ⟨p, s.actors.set i a'⟩ := by
  have howed := hdoes.owed_eq
  have hsum (f : Actor → Int) : Scene.sum f ⟨p, s.actors.set i a'⟩ + f a = s.sum f + f a' :=
    sum_map_set f ha a'
  refine ⟨heffect.distinct h.distinct, ?_, ?_, ?_, ?_⟩
  · -- even
    intro c
    have under : ∀ e ∈ d.settles, ¬ e.Underflows s.ledger := by
      intro e he
      cases d with
      | tell e' =>
        rw [List.mem_singleton.1 he]
        exact h.sound (List.mem_of_getElem? ha) (by simpa [Deed.incurs, Deed.settles] using howed)
      | _ => cases he
    have hreading := heffect.reading under c (h.room fits c)
    have hfigure := heffect.figure h.distinct fresh c
    have hchanges := congrArg (changes c) howed
    rw [Ledger.changes_append, Ledger.changes_append] at hchanges
    have heven := h.even c
    have := hsum fun a => changes c a.owed
    simp only [Scene.store, Scene.ledger] at *
    omega
  · -- held
    have := hdoes.held heffect h.distinct fresh
    have := hsum fun a => a.holding.isSome.toNat
    have := h.held
    simp only [Scene.store] at *
    omega
  · -- spent
    have := hdoes.spent heffect h.distinct fresh
    have := hsum fun a => a.owed.count (.failureReported false)
    have := h.spent
    simp only [Scene.store] at *
    omega
  · -- credited
    have := hdoes.credited heffect h.distinct fresh
    have := hsum fun a => a.owed.count .retried
    have := h.credited
    simp only [Scene.store] at *
    omega

end Balanced

/-! ## Runs -/

/-- The books are balanced, whatever happens while the process has room. -/
theorem balanced_of_reaches {s s' : Scene} (run : s.Reaches Action.fitting s')
    (start : s.Balanced) : s'.Balanced := by
  refine run.invariant ?_ start
  intro s action s' h fitting hstep
  obtain ⟨lawful, fits⟩ := Action.fitting_iff.1 fitting
  cases action with
  | enter a => cases hstep; exact h.enter lawful
  | offer id => cases hstep; exact ⟨h.distinct, h.even, h.held, h.spent, h.credited⟩
  | close => cases hstep; exact ⟨h.distinct, h.even, h.held, h.spent, h.credited⟩
  | act i cue =>
    obtain ⟨a, a', p, ha, hs, rfl⟩ := step_act_iff.1 hstep
    obtain ⟨d, heffect, hdoes⟩ := Actor.step_does hs
    exact h.deed fits ha hdoes heffect (fresh_of_lawful lawful ha hdoes)

theorem Balanced.agrees {s : Scene} (h : s.Balanced) (quiet : s.Quiet) : s.pipeline.Agrees := by
  rw [Pipeline.agrees_iff]
  intro c
  have hzero : s.sum (fun a => changes c a.owed) = 0 := by
    apply List.sum_eq_zero
    intro x hx
    obtain ⟨a, ha, rfl⟩ := List.mem_map.1 hx
    rw [quiet a ha]; rfl
  have := h.even c
  simp only [Scene.store, Scene.ledger] at *
  omega

/-- An action changes the ledger only as the actor that is at it has to tell, and takes no counter
below zero. -/
theorem Balanced.ledger_step {s s' : Scene} (h : s.Balanced) {action : Action}
    (hstep : s.step action = some s') :
    s'.ledger = s.ledger ∨
      ∃ a ∈ s.actors, ∃ e ∈ a.owed.head?, ¬ e.Underflows s.ledger ∧
        s'.ledger = s.ledger.record e := by
  cases action with
  | enter a => cases hstep; exact .inl rfl
  | offer id => cases hstep; exact .inl rfl
  | close => cases hstep; exact .inl rfl
  | act i cue =>
    obtain ⟨a, a', p, ha, hs, rfl⟩ := step_act_iff.1 hstep
    obtain ⟨d, heffect, hdoes⟩ := Actor.step_does hs
    have hmem := List.mem_of_getElem? ha
    cases d with
    | rest => exact .inl heffect.2
    | tell e =>
      have howed : a.owed = e :: a'.owed := by simpa [Deed.incurs, Deed.settles] using hdoes.owed_eq
      exact .inr ⟨a, hmem, e, by rw [howed]; rfl, h.sound hmem howed, heffect.2⟩
    | claim old => exact .inl heffect.2.2.2
    | report old result => exact .inl heffect.2.2.2
    | recover n => exact .inl heffect.2.2
    | create job => exact .inl heffect.2

end Scene

/-- **Ledger and store agree in every order of steps.** Start where the counters are right and let
anybody come and do anything. Whenever nobody owes the ledger a call, the counters are right again,
and no action on the way takes a counter below zero. -/
theorem ledger_agrees_with_store {p : Pipeline} {s : Scene} (distinct : p.store.Distinct)
    (agrees : p.Agrees) (run : (Scene.of p).Reaches Action.fitting s) :
    (s.Quiet → s.pipeline.Agrees) ∧
      ∀ action s', s.step action = some s' → s'.ledger = s.ledger ∨
        ∃ a ∈ s.actors, ∃ e ∈ a.owed.head?, ¬ e.Underflows s.ledger ∧
          s'.ledger = s.ledger.record e := by
  have balanced := Scene.balanced_of_reaches run (Scene.Balanced.of_agrees distinct agrees)
  constructor
  · exact balanced.agrees
  · intro action s' hstep
    exact balanced.ledger_step hstep

/-- One job, which has failed once and may be tried again. -/
def lapsedPipeline : Pipeline :=
  ⟨⟨[⟨0, ⟨⟨"a"⟩, "email_send", .failed, [], 1, 3, some "no route", ⟨0, 0⟩⟩⟩], 1⟩, .ofCapacity 1,
    ⟨1, 0, 1, 0, 0⟩⟩

/-- A worker claims the job that a sweep has sent back, before the sweep has told the ledger. -/
theorem ledger_agrees_after_sweep_and_worker :
    ∃ s, (Scene.of lapsedPipeline).Reaches Action.fitting s ∧ s.ledger = ⟨1, 1, 0, 1, 0⟩ ∧
      s.pipeline.Agrees := by
  let actions : List Action :=
    [.enter (.sweep .recovering), .go 0, .enter (.handling (.claiming ⟨"a"⟩)), .go 1, .go 1, .go 0,
      .go 1, .go 1, .go 1, .go 1]
  have run : (Scene.of lapsedPipeline).Reaches Action.fitting _ := Scene.reaches_of_play actions rfl
  refine ⟨_, run, rfl, (ledger_agrees_with_store ?_ ⟨rfl, rfl, rfl, rfl⟩ run).1 ?_⟩
  · exact List.nodup_singleton _
  · exact of_decide_eq_true rfl

end JobPipeline
