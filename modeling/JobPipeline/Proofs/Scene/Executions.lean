import JobPipeline.Proofs.Scene.Custody
import JobPipeline.Proofs.Store.Budget

/-!
# How often a workload runs

A run of a scene starts the workload of a job each time a worker goes on from `ready`.
`Scene.Executes` counts these starts. Every start follows a claim of its own, so the count never
passes the attempts in the record, and it equals them whenever nobody has the job in hand
(`Scene.Tally`). With the bounds on the attempts (`Job.WithinBudget`) this bounds the executions.

That holds as long as the attempts can be counted, that is, below the greatest budget
(`Job.Budgeted`).
-/

namespace JobPipeline

/-- Whether an action starts the workload of the job with the given id. -/
def Action.executes (id : JobId) (s : Scene) : Action → Bool
  | .act i cue => match s.actors[i]? with
    | some (.handling (.ready job)) => job.id = id && !cue.stopped
    | _ => false
  | _ => false

namespace Actor

/-- Claimed records whose workload has not been started. -/
def unstarted : Actor → Nat
  | .handling (.claimed _) => 1
  | .handling (.ready _) => 1
  | _ => 0

variable {r : ReceiverId} {cue : Cue} {a a' : Actor} {p p' : Pipeline}

/-- A worker that keeps a record either starts the workload or has done as much as before. -/
theorem start_of_step (hs : a.step r cue p = some (a', p')) :
    (∃ job, a = .handling (.ready job) ∧ cue.stopped = false ∧ a' = .handling (.working job) ∧
        p' = p) ∨
      ((∀ job, a = .handling (.ready job) → cue.stopped = true) ∧
        ∀ job, a'.holding = some job → a.holding = some job → a'.unstarted = a.unstarted) := by
  -- Whoever has let go of the record has nothing to keep.
  have gone (free : a'.holding = none) (job : Job) (h : a'.holding = some job)
      (_ : a.holding = some job) : a'.unstarted = a.unstarted := by
    rw [free] at h; cases h
  cases a with
  | sweep s =>
    obtain ⟨_, _, h⟩ := Option.map_eq_some_iff.1 hs; cases h; exact .inr ⟨nofun, gone rfl⟩
  | creation c =>
    obtain ⟨_, _, h⟩ := Option.map_eq_some_iff.1 hs; cases h; exact .inr ⟨nofun, gone rfl⟩
  | worker w =>
    obtain ⟨⟨w', q⟩, hw, h⟩ := Option.map_eq_some_iff.1 hs
    cases h
    cases Worker.moves_of_step hw with
    | handle proceeds =>
      cases proceeds with
      | start job running => exact .inl ⟨job, rfl, running, rfl, rfl⟩
      | count job => exact .inr ⟨nofun, fun _ _ _ => rfl⟩
      | forgo job stops => exact .inr ⟨fun _ _ => stops, gone rfl⟩
      | claim => exact .inr ⟨nofun, fun _ _ => nofun⟩
      | report _ _ _ result => cases result <;> exact .inr ⟨nofun, gone rfl⟩
      | _ => exact .inr ⟨nofun, gone rfl⟩
    | finish job => exact .inr ⟨nofun, fun _ _ _ => rfl⟩
    | look => exact .inr ⟨nofun, gone (holding_answered _)⟩
    | serve => exact .inr ⟨nofun, gone (holding_answered _)⟩
    | _ => exact .inr ⟨nofun, gone rfl⟩

end Actor

theorem Deed.Effect.evolves {d : Deed} {p p' : Pipeline} (h : d.Effect p p')
    (fresh : d.Fresh p.store) : p.store.Evolves p'.store := by
  cases d with
  | rest => rw [h.1]; exact .rest
  | tell e => rw [h.1]; exact .rest
  | claim old => rw [h.2.2.1]; exact .change h.1 (.claim h.2.1)
  | report old result =>
    rw [h.2.2.1]
    cases result with
    | success => exact .change h.1 (.success h.2.1)
    | failure reason => exact .change h.1 (.failure h.2.1 reason)
  | recover n => rw [h.2.1]; exact .sweep
  | create job => exact .create fresh.1 fresh.2 h.1

namespace Scene

/-- A run of allowed actions in which the workload of one job is started `n` times. -/
inductive Executes (allowed : Scene → Action → Bool) (id : JobId) (s : Scene) : Nat → Scene → Prop
  | refl : s.Executes allowed id 0 s
  | tail {n : Nat} {t t' : Scene} {a : Action} (run : s.Executes allowed id n t)
      (allows : allowed t a = true) (step : t.step a = some t') :
      s.Executes allowed id (n + (a.executes id t).toNat) t'

namespace Executes

variable {allowed allowed' : Scene → Action → Bool} {id : JobId} {n m : Nat} {s t u : Scene}

theorem reaches (run : s.Executes allowed id n t) : s.Reaches allowed t := by
  induction run with
  | refl => exact .refl
  | tail _ allows step ih => exact ih.tail ⟨_, allows, step⟩

theorem trans (run : s.Executes allowed id n t) (more : t.Executes allowed id m u) :
    s.Executes allowed id (n + m) u := by
  induction more with
  | refl => exact run
  | tail _ allows step ih => rw [← Nat.add_assoc]; exact ih.tail allows step

theorem mono (h : ∀ s a, allowed s a = true → allowed' s a = true)
    (run : s.Executes allowed id n t) : s.Executes allowed' id n t := by
  induction run with
  | refl => exact .refl
  | tail _ allows step ih => exact ih.tail (h _ _ allows) step

end Executes

/-! ## The tally -/

/-- How many executions a record accounts for.

  * `absent`  — a job that does not exist has not been executed.
  * `counted` — no execution is without an attempt, and no attempt without an execution once nobody
    is at it.
  * `held`    — of the attempt that is in hand the workload has been started or not. -/
structure Tally (id : JobId) (n : Nat) (s : Scene) : Prop where
  absent : s.store.get? id = none → n = 0
  counted : ∀ job, s.store.get? id = some job → job.Budgeted →
    n ≤ job.attempts.toNat ∧ (job.status ≠ .processing → n = job.attempts.toNat)
  held : ∀ (i : Nat) (a : Actor) (job : Job), s.actors[i]? = some a → a.holding = some job →
    job.id = id → job.Budgeted → n + a.unstarted = job.attempts.toNat

namespace Tally

variable {id : JobId} {n : Nat} {s : Scene} {i : Nat} {a a' : Actor} {p : Pipeline}

theorem of_pipeline (absent : p.store.get? id = none) : Tally id 0 (Scene.of p) := by
  refine ⟨fun _ => rfl, ?_, ?_⟩
  · intro job hget; rw [show (Scene.of p).store = p.store from rfl, absent] at hget; cases hget
  · intro i a job ha; simp [Scene.of] at ha

/-- What neither touches the record nor starts its workload changes no tally. -/
theorem quiet (h : Tally id n s) (ha : s.actors[i]? = some a)
    (record : p.store.get? id = s.store.get? id)
    (kept : ∀ job, a'.holding = some job → job.id = id →
      a.holding = some job ∧ a'.unstarted = a.unstarted) :
    Tally id n ⟨p, s.actors.set i a'⟩ := by
  refine ⟨?_, ?_, ?_⟩
  · intro hnone; exact h.absent (record.symm.trans hnone)
  · intro job hget; exact h.counted job (record.symm.trans hget)
  · intro j b job hb hholding hid budget
    rcases getElem?_set_cases hb with ⟨-, rfl⟩ | ⟨-, hb⟩
    · obtain ⟨hsame, hunstarted⟩ := kept job hholding hid
      rw [hunstarted]
      exact h.held i a job ha hsame hid budget
    · exact h.held j b job hb hholding hid budget

/-- The tally of a record that stands in the store afterwards and that no other actor has. -/
theorem of_record {new : Job} (hnew : p.store.get? id = some new)
    (counts : new.Budgeted →
      n ≤ new.attempts.toNat ∧ (new.status ≠ .processing → n = new.attempts.toNat))
    (mine : ∀ job, a'.holding = some job → job.id = id → job.Budgeted →
      n + a'.unstarted = job.attempts.toNat)
    (others : ∀ j job, j ≠ i → s.Holds j job → job.id ≠ id) :
    Tally id n ⟨p, s.actors.set i a'⟩ := by
  refine ⟨?_, ?_, ?_⟩
  · intro hnone
    exact absurd (hnew.symm.trans hnone) (by simp)
  · intro job hget budget
    obtain rfl := Option.some.inj (hnew.symm.trans hget)
    exact counts budget
  · intro j b job hb hholding hid budget
    rcases getElem?_set_cases hb with ⟨-, rfl⟩ | ⟨hji, hb⟩
    · exact mine job hholding hid budget
    · exact absurd hid (others j job hji (holds_of_holding hb hholding))

/-- A claim is an attempt whose workload has not been started. -/
theorem claimed (h : Tally id n s) (custody : s.Custody) {old : Job} (within : old.WithinBudget)
    (hid : old.id = id) (found : s.store.get? old.id = some old) (pending : old.status = .pending)
    (wrote : p.store = s.store.set old.id old.started) :
    Tally id n ⟨p, s.actors.set i (.handling (.claimed old.started))⟩ := by
  subst hid
  have hnew : p.store.get? old.id = some old.started := by
    rw [wrote]; exact Store.get?_set_self (Job.id_started old) found
  have counts (budget : old.Budgeted) : old.started.attempts.toNat = n + 1 := by
    have hn := (h.counted old found budget).2 (by rw [pending]; decide)
    have hle := within.pending pending
    have hsucc := Job.toNat_saturatingSucc old.attempts
    simp only [Job.Budgeted] at budget
    simp only [Job.started, hsucc]
    omega
  refine of_record hnew (fun budget => ?_) (fun job hholding _ budget => ?_) fun j job _ held =>
    custody.ne_of_idle found (by rw [pending]; decide) held
  · have hcount := counts budget
    exact ⟨by omega, fun hne => absurd rfl hne⟩
  · cases hholding
    exact (counts budget).symm

/-- A report ends an attempt whose workload has been started. -/
theorem reported (h : Tally id n s) (custody : s.Custody) {mine old : Job} {result : WorkResult}
    (ha : s.actors[i]? = some (.handling (.reporting mine result))) (same : mine.id = old.id)
    (hid : old.id = id) (found : s.store.get? old.id = some old)
    (wrote : p.store = s.store.set old.id (old.reported result)) (hnone : a'.holding = none) :
    Tally id n ⟨p, s.actors.set i a'⟩ := by
  subst hid
  have mineHeld : s.Holds i mine := holds_of_holding ha rfl
  obtain ⟨hmine, -⟩ := custody.held i mine mineHeld
  rw [same, found] at hmine
  obtain rfl := Option.some.inj hmine
  have hnew : p.store.get? old.id = some (old.reported result) := by
    rw [wrote]; exact Store.get?_set_self (Job.id_reported result old) found
  refine of_record hnew (fun budget => ?_) (fun job hholding => ?_) fun j job hji held hjob =>
    hji (custody.sole j i job old held mineHeld hjob)
  · have budget : old.Budgeted := by simpa [Job.Budgeted] using budget
    have hcount : n = old.attempts.toNat := h.held i _ old ha rfl rfl budget
    rw [Job.attempts_reported]
    exact ⟨by omega, fun _ => hcount⟩
  · rw [hnone] at hholding
    cases hholding

/-- A start of the workload is an execution. -/
theorem started (h : Tally id n s) (custody : s.Custody) {job : Job}
    (ha : s.actors[i]? = some (.handling (.ready job))) (hid : job.id = id) :
    Tally id (n + 1) ⟨s.pipeline, s.actors.set i (.handling (.working job))⟩ := by
  subst hid
  have mineHeld : s.Holds i job := holds_of_holding ha rfl
  obtain ⟨found, processing⟩ := custody.held i job mineHeld
  refine of_record found (fun budget => ?_) (fun job' hholding _ budget => ?_)
    fun j job' hji held hjob => hji (custody.sole j i job' job held mineHeld hjob)
  · have hcount : n + 1 = job.attempts.toNat := h.held i _ job ha rfl rfl budget
    exact ⟨by omega, fun hne => absurd processing hne⟩
  · cases hholding
    exact h.held i _ job ha rfl rfl budget

/-- A creation brings a job that has not been executed. -/
theorem created (h : Tally id n s) (custody : s.Custody) {job : Job} (hid : job.id = id)
    (new : job.isNew = true) (fresh : s.store.get? job.id = none)
    (wrote : s.store.create job false = .ok p.store) (hnone : a'.holding = none) :
    Tally id n ⟨p, s.actors.set i a'⟩ := by
  subst hid
  obtain rfl := h.absent fresh
  have hnew : p.store.get? job.id = some job := by rw [Store.get?_create wrote, if_pos rfl]
  refine of_record hnew (fun _ => ?_) (fun job' hholding => ?_) fun j job' _ held hjob => ?_
  · have hattempts : job.attempts = 0 := by
      simp only [Job.isNew, Bool.and_eq_true, decide_eq_true_eq] at new; exact new.2
    exact ⟨Nat.zero_le _, fun _ => by rw [hattempts]; rfl⟩
  · rw [hnone] at hholding
    cases hholding
  · obtain ⟨hget, -⟩ := custody.held j job' held
    rw [hjob, fresh] at hget
    cases hget

theorem enter (h : Tally id n s) {a : Actor} (hnew : a.isNewcomer = true) :
    Tally id n { s with actors := s.actors ++ [a] } := by
  have hnone : a.holding = none := by
    rcases Actor.newcomer_cases hnew with rfl | ⟨_, rfl⟩ | rfl | ⟨_, rfl⟩ <;> rfl
  refine ⟨h.absent, h.counted, fun i b job hb hholding hid budget => ?_⟩
  rcases getElem?_concat_cases hb with hb | rfl
  · exact h.held i b job hb hholding hid budget
  · rw [hnone] at hholding
    cases hholding

/-- A deed that starts no workload. -/
theorem deed (h : Tally id n s) (custody : s.Custody)
    (within : ∀ job, s.store.get? id = some job → job.WithinBudget) (ha : s.actors[i]? = some a)
    {d : Deed} (hdoes : a.Does d a') (effect : d.Effect s.pipeline p) (fresh : d.Fresh s.store)
    (kept : ∀ job, a'.holding = some job → a.holding = some job → a'.unstarted = a.unstarted) :
    Tally id n ⟨p, s.actors.set i a'⟩ := by
  have quiet (record : p.store.get? id = s.store.get? id)
      (hsame : a'.holding = a.holding ∨ a'.holding = none) :
      Tally id n ⟨p, s.actors.set i a'⟩ := by
    refine h.quiet ha record fun job hholding _ => ?_
    rcases hsame with hsame | hnone
    · exact ⟨hsame ▸ hholding, kept job hholding (hsame ▸ hholding)⟩
    · rw [hnone] at hholding; cases hholding
  cases hdoes with
  | rest _ hsame => exact quiet (by rw [effect.1]) hsame
  | claim old =>
    obtain ⟨found, pending, wrote, -⟩ := effect
    by_cases hid : old.id = id
    · exact h.claimed custody (within old (hid ▸ found)) hid found pending wrote
    · refine h.quiet ha ?_ fun job hholding hjob => ?_
      · rw [wrote, Store.get?_set_of_ne (Job.id_started old) (Ne.symm hid)]
      · cases hholding; exact absurd hjob hid
  | tellClaimed job => exact quiet (by rw [effect.1]) (.inl rfl)
  | @succeed mine old same =>
    obtain ⟨found, -, wrote, -⟩ := effect
    by_cases hid : old.id = id
    · exact h.reported custody ha same hid found wrote rfl
    · exact quiet (by rw [wrote, Store.get?_set_of_ne (Job.id_reported _ old) (Ne.symm hid)])
        (.inr rfl)
  | @fail mine old same reason =>
    obtain ⟨found, -, wrote, -⟩ := effect
    by_cases hid : old.id = id
    · exact h.reported custody ha same hid found wrote rfl
    · exact quiet (by rw [wrote, Store.get?_set_of_ne (Job.id_reported _ old) (Ne.symm hid)])
        (.inr rfl)
  | recover k report =>
    refine quiet ?_ (.inr rfl)
    rw [effect.2.1, Store.get?_swept]
    cases hget : s.store.get? id with
    | none => rfl
    | some job => rw [Option.map_some, Job.swept_of_not_lapsed (within job hget).not_lapsed]
  | create job =>
    by_cases hid : job.id = id
    · exact h.created custody hid fresh.1 fresh.2 effect.1 rfl
    · exact quiet (by rw [Store.get?_create effect.1, if_neg (Ne.symm hid)]) (.inr rfl)
  | _ => exact quiet (by rw [effect.1]) (.inr rfl)

/-- An action adds to the tally what it executes. -/
theorem step (h : Tally id n s) (custody : s.Custody)
    (within : ∀ job, s.store.get? id = some job → job.WithinBudget) {action : Action}
    (lawful : action.lawful s = true) {s' : Scene} (hstep : s.step action = some s') :
    Tally id (n + (action.executes id s).toNat) s' := by
  cases action with
  | enter a => cases hstep; exact h.enter lawful
  | offer other => cases hstep; exact ⟨h.absent, h.counted, h.held⟩
  | close => cases hstep; exact ⟨h.absent, h.counted, h.held⟩
  | act i cue =>
    obtain ⟨a, a', p, ha, hs, rfl⟩ := step_act_iff.1 hstep
    rcases Actor.start_of_step hs with ⟨job, rfl, running, rfl, rfl⟩ | ⟨idle, kept⟩
    · by_cases hid : job.id = id
      · have hexec : (Action.act i cue).executes id s = true := by
          simp [Action.executes, ha, hid, running]
        rw [hexec]
        exact h.started custody ha hid
      · have hexec : (Action.act i cue).executes id s = false := by
          simp [Action.executes, ha, hid]
        rw [hexec]
        exact h.quiet ha rfl fun _ hholding hjob => by cases hholding; exact absurd hjob hid
    · have hexec : (Action.act i cue).executes id s = false := by
        simp only [Action.executes, ha]
        split
        · rename_i job heq
          rw [idle job (Option.some.inj heq)]
          simp
        · rfl
      rw [hexec]
      obtain ⟨d, effect, hdoes⟩ := Actor.step_does hs
      exact h.deed custody within ha hdoes effect (fresh_of_lawful lawful ha hdoes) kept

end Tally

/-! ## Runs -/

section
variable {id : JobId} {n : Nat} {s s' : Scene}

theorem evolves_of_step {action : Action} (lawful : action.lawful s = true)
    (hstep : s.step action = some s') : s.store.Evolves s'.store := by
  cases action with
  | act i cue =>
    obtain ⟨a, a', p, ha, hs, rfl⟩ := step_act_iff.1 hstep
    obtain ⟨d, effect, hdoes⟩ := Actor.step_does hs
    exact effect.evolves (fresh_of_lawful lawful ha hdoes)
  | _ => cases hstep; exact .rest

theorem Executes.tally {p : Pipeline} (absent : p.store.get? id = none)
    (run : (Scene.of p).Executes Action.lawful id n s) :
    (∀ job, s.store.get? id = some job → job.WithinBudget) ∧ Tally id n s := by
  induction run with
  | refl =>
    refine ⟨fun job hget => ?_, .of_pipeline absent⟩
    exact absurd (hget.symm.trans absent) (by simp)
  | tail run lawful hstep ih =>
    obtain ⟨within, tally⟩ := ih
    exact ⟨fun _ hget => (evolves_of_step lawful hstep).withinBudget within hget,
      tally.step (.of_reaches run.reaches) within lawful hstep⟩

/-- A job that has failed stands as it is. -/
theorem Executes.final {job : Job} (run : s.Executes Action.lawful id n s')
    (hget : s.store.get? id = some job) (within : job.WithinBudget) (final : job.Final) :
    s'.store.get? id = some job := by
  induction run with
  | refl => exact hget
  | tail _ lawful hstep ih => exact (evolves_of_step lawful hstep).final ih within final

end

end Scene
end JobPipeline
