import JobPipeline.Proofs.Scene.Deeds
import JobPipeline.Proofs.Store.History

/-!
# One record, one holder

A worker that has claimed a record holds it until it has reported, and only claims hand out records.
So a held record is processing and stands in the store as it was handed out, no two workers hold the
same one, and no report is ever refused: `Scene.Custody` says the first two, and every lawful action
keeps them.
-/

namespace JobPipeline

/-- No deed but the report of it touches a record that is processing. -/
theorem Deed.Effect.get?_of_processing {d : Deed} {p p' : Pipeline} (h : d.Effect p p')
    (fresh : d.Fresh p.store) {id : JobId} {job : Job}
    (hget : p.store.get? id = some job) (processing : job.status = .processing)
    (other : ∀ old result, d = .report old result → old.id ≠ id) : p'.store.get? id = some job := by
  cases d with
  | rest => rw [h.1]; exact hget
  | tell e => rw [h.1]; exact hget
  | claim old =>
    have hne : id ≠ old.id := by
      rintro rfl
      obtain rfl : job = old := Option.some.inj (hget.symm.trans h.1)
      exact absurd (processing.symm.trans h.2.1) (by decide)
    rw [h.2.2.1, Store.get?_set_of_ne (Job.id_started old) hne]; exact hget
  | report old result =>
    rw [h.2.2.1, Store.get?_set_of_ne (Job.id_reported result old) (other old result rfl).symm]
    exact hget
  | recover n =>
    have hlapsed : job.lapsed = false := by simp [Job.lapsed, processing]
    rw [h.2.1, Store.get?_swept, hget, Option.map_some, Job.swept_of_not_lapsed hlapsed]
  | create new =>
    have hne : id ≠ new.id := by
      rintro rfl
      exact absurd (hget.symm.trans fresh.2) (by simp)
    rw [Store.get?_create h.1, if_neg hne]; exact hget

namespace Handling.Proceeds

variable {stopped : Bool} {h h' : Handling} {p p' : Pipeline}

theorem of_rejected (proceeds : h.Proceeds stopped p h' p') (hdone : h' = .done .reportRejected) :
    ∃ job result, h = .reporting job result ∧
      ∀ old, p.store.get? job.id = some old → old.status ≠ .processing := by
  cases proceeds with
  | reject result refused => exact ⟨_, result, rfl, refused⟩
  | report _ _ _ result => cases result <;> cases hdone
  | _ => cases hdone

theorem ne_reporting (proceeds : h.Proceeds stopped p h' p') (job : Job) (result : WorkResult) :
    h' ≠ .reporting job result := by
  intro hreport
  cases proceeds with
  | report _ _ _ result => cases result <;> cases hreport
  | _ => cases hreport

end Handling.Proceeds

namespace Actor

variable {a a' : Actor} {d : Deed}

/-- Only a claim puts a record into somebody's hands. -/
theorem Does.holding_eq (h : a.Does d a') :
    (∃ old, d = .claim old ∧ a'.holding = some old.started) ∨
      (a'.holding = a.holding ∧ ∀ old result, d ≠ .report old result) ∨ a'.holding = none := by
  cases h with
  | rest _ holding =>
    rcases holding with hsame | hnone
    · exact .inr (.inl ⟨hsame, nofun⟩)
    · exact .inr (.inr hnone)
  | claim old => exact .inl ⟨old, rfl, rfl⟩
  | tellClaimed job => exact .inr (.inl ⟨rfl, nofun⟩)
  | _ => exact .inr (.inr rfl)

theorem Does.reporting {old : Job} {result : WorkResult} (h : a.Does (.report old result) a') :
    ∃ job, a = handling (.reporting job result) ∧ job.id = old.id := by
  cases h with
  | @succeed job _ same => exact ⟨job, rfl, same⟩
  | @fail job _ same _ => exact ⟨job, rfl, same⟩

/-- How a worker comes to be where it is in the middle of an id: it has just got the id, or it was
in the middle of it already, or its workload has ended. -/
theorem handling_of_step {r : ReceiverId} {cue : Cue} {a : Actor} {h' : Handling}
    {p p' : Pipeline} (hs : a.step r cue p = some (handling h', p')) :
    (∃ id, h' = .claiming id) ∨ (∃ h, a = handling h ∧ h.Proceeds cue.stopped p h' p') ∨
      ∃ job result, a = handling (.working job) ∧ cue.ending = .result result ∧
        h' = .reporting job result := by
  have answered {q : Queue} (h : .handling h' = Worker.answered (q.receive r).1) :
      ∃ id, h' = .claiming id := by
    cases hr : (q.receive r).1 <;> rw [hr] at h <;> cases h
    exact ⟨_, rfl⟩
  cases a with
  | sweep s => obtain ⟨_, _, h⟩ := Option.map_eq_some_iff.1 hs; cases h
  | creation c => obtain ⟨_, _, h⟩ := Option.map_eq_some_iff.1 hs; cases h
  | worker w =>
    obtain ⟨⟨w', q⟩, hw, h⟩ := Option.map_eq_some_iff.1 hs
    cases h
    have moves := Worker.moves_of_step hw
    generalize hw' : Worker.handling h' = w' at moves
    cases moves with
    | look => exact .inl (answered hw')
    | serve => exact .inl (answered hw')
    | handle proceeds => cases hw'; exact .inr (.inl ⟨_, rfl, proceeds⟩)
    | finish job ending => cases hw'; exact .inr (.inr ⟨job, _, rfl, ending, rfl⟩)
    | _ => cases hw'

/-- A report is refused only if the record that the worker holds is not processing. -/
theorem holding_of_rejected {r : ReceiverId} {cue : Cue} {a : Actor} {p p' : Pipeline}
    (hs : a.step r cue p = some (handling (.done .reportRejected), p')) :
    ∃ job, a.holding = some job ∧
      ∀ old, p.store.get? job.id = some old → old.status ≠ .processing := by
  rcases handling_of_step hs with ⟨_, h⟩ | ⟨h, rfl, proceeds⟩ | ⟨_, _, _, _, h⟩
  · cases h
  · obtain ⟨job, result, rfl, hold⟩ := proceeds.of_rejected rfl
    exact ⟨job, rfl, hold⟩
  · cases h

/-- A report starts with the end of the workload. -/
theorem working_of_reporting {r : ReceiverId} {cue : Cue} {a : Actor} {job : Job}
    {result : WorkResult} {p p' : Pipeline}
    (hs : a.step r cue p = some (handling (.reporting job result), p')) :
    a = handling (.working job) ∧ cue.ending = .result result := by
  rcases handling_of_step hs with ⟨_, h⟩ | ⟨h, rfl, proceeds⟩ | ⟨_, _, rfl, hending, h⟩
  · cases h
  · exact absurd rfl (proceeds.ne_reporting job result)
  · cases h; exact ⟨rfl, hending⟩

end Actor

namespace Scene

/-- The actor at a position holds a record, as it was handed out. -/
def Holds (s : Scene) (i : Nat) (job : Job) : Prop := s.actors[i]?.bind Actor.holding = some job

theorem holds_of_holding {s : Scene} {i : Nat} {a : Actor} {job : Job} (ha : s.actors[i]? = some a)
    (h : a.holding = some job) : s.Holds i job := by
  rw [Holds, ha]
  exact h

/-- Who holds what.

  * `held`   — a held record is processing, and stands in the store as it was handed out.
  * `sole`   — nobody else holds it.
  * `upheld` — nobody has had a report refused. -/
structure Custody (s : Scene) : Prop where
  held : ∀ i job, s.Holds i job → s.store.get? job.id = some job ∧ job.status = .processing
  sole : ∀ i j job job', s.Holds i job → s.Holds j job' → job.id = job'.id → i = j
  upheld : Actor.handling (.done .reportRejected) ∉ s.actors

namespace Custody

variable {s : Scene}

theorem holds_set_iff {p : Pipeline} {i j : Nat} {a a' : Actor} {job : Job}
    (ha : s.actors[i]? = some a) :
    Holds ⟨p, s.actors.set i a'⟩ j job ↔
      if j = i then a'.holding = some job else s.Holds j job := by
  have hlt := (List.getElem?_eq_some_iff.1 ha).1
  by_cases h : j = i
  · subst h; simp [Holds, hlt]
  · simp [Holds, h, List.getElem?_set_ne (Ne.symm h)]

/-- A record that somebody else holds, or that nobody reports on, stays as it is. -/
theorem stays (h : s.Custody) {i j : Nat} {a a' : Actor} {d : Deed} {p : Pipeline} {job : Job}
    (ha : s.actors[i]? = some a) (hdoes : a.Does d a') (heffect : d.Effect s.pipeline p)
    (fresh : d.Fresh s.store) (hj : s.Holds j job)
    (hother : j ≠ i ∨ ∀ old result, d ≠ .report old result) :
    p.store.get? job.id = some job ∧ job.status = .processing := by
  obtain ⟨hget, processing⟩ := h.held j job hj
  refine ⟨heffect.get?_of_processing fresh hget processing ?_, processing⟩
  rintro old result rfl hid
  rcases hother with hne | hne
  · obtain ⟨mine, rfl, hmid⟩ := hdoes.reporting
    exact hne (h.sole j i job mine hj (holds_of_holding ha rfl) (hid.symm.trans hmid.symm))
  · exact hne old result rfl

/-- A record that is not processing is in nobody's hands. -/
theorem ne_of_idle (h : s.Custody) {old : Job} (found : s.store.get? old.id = some old)
    (idle : old.status ≠ .processing) {i : Nat} {job : Job} (held : s.Holds i job) :
    job.id ≠ old.id := by
  intro hid
  obtain ⟨hget, processing⟩ := h.held i job held
  rw [hid, found] at hget
  exact idle (Option.some.inj hget ▸ processing)

/-- A deed keeps every record in the hands it is in. -/
theorem deed (h : s.Custody) {i : Nat} {a a' : Actor} {d : Deed} {p : Pipeline}
    (ha : s.actors[i]? = some a) (hdoes : a.Does d a') (heffect : d.Effect s.pipeline p)
    (fresh : d.Fresh s.store) (upheld : a' ≠ .handling (.done .reportRejected)) :
    Custody ⟨p, s.actors.set i a'⟩ := by
  have stays {j : Nat} {job : Job} (hj : s.Holds j job)
      (hother : j ≠ i ∨ ∀ old result, d ≠ .report old result) :
      p.store.get? job.id = some job ∧ job.status = .processing :=
    h.stays ha hdoes heffect fresh hj hother
  have upheld' : Actor.handling (.done .reportRejected) ∉ s.actors.set i a' := by
    intro hmem
    rcases List.mem_or_eq_of_mem_set hmem with hold | hnew
    · exact h.upheld hold
    · exact upheld hnew.symm
  rcases hdoes.holding_eq with ⟨old, rfl, hnew⟩ | hkept
  · -- The record that has been claimed was pending, so it is none of those that are held.
    obtain ⟨hfound, pending, hstore, -⟩ := heffect
    have hne {j : Nat} {job : Job} (hj : s.Holds j job) : job.id ≠ old.id :=
      h.ne_of_idle hfound (by rw [pending]; decide) hj
    refine ⟨?_, ?_, upheld'⟩
    · -- held
      intro j job hj
      rw [holds_set_iff ha, hnew] at hj
      split at hj
      · obtain rfl := Option.some.inj hj
        refine ⟨?_, rfl⟩
        show p.store.get? old.id = some old.started
        rw [hstore]
        exact Store.get?_set_self (Job.id_started old) hfound
      · rename_i hji; exact stays hj (.inl hji)
    · -- sole
      intro j k job job' hj hk hid
      rw [holds_set_iff ha, hnew] at hj hk
      split at hj <;> split at hk
      · rename_i hji hki; rw [hji, hki]
      · obtain rfl := Option.some.inj hj; exact absurd hid.symm (hne hk)
      · obtain rfl := Option.some.inj hk; exact absurd hid (hne hj)
      · exact h.sole j k job job' hj hk hid
  · -- Whoever holds a record has held it before.
    have back {j : Nat} {job : Job} (hj : Holds ⟨p, s.actors.set i a'⟩ j job) :
        s.Holds j job ∧ (j ≠ i ∨ ∀ old result, d ≠ .report old result) := by
      rw [holds_set_iff ha] at hj
      split at hj
      · rename_i hji
        subst hji
        rcases hkept with ⟨hsame, hreport⟩ | hnone
        · exact ⟨holds_of_holding ha (hsame.symm.trans hj), .inr hreport⟩
        · rw [hnone] at hj; cases hj
      · rename_i hji; exact ⟨hj, .inl hji⟩
    refine ⟨?_, ?_, upheld'⟩
    · -- held
      intro j job hj
      exact stays (back hj).1 (back hj).2
    · -- sole
      intro j k job job' hj hk hid
      exact h.sole j k job job' (back hj).1 (back hk).1 hid

theorem of_pipeline (p : Pipeline) : (Scene.of p).Custody := by
  refine ⟨?_, ?_, ?_⟩
  · intro i job h; simp [Holds, Scene.of] at h
  · intro i j job job' h; simp [Holds, Scene.of] at h
  · simp [Scene.of]

theorem enter (h : s.Custody) {a : Actor} (hnew : a.isNewcomer = true) :
    Custody { s with actors := s.actors ++ [a] } := by
  obtain ⟨hnone, hne⟩ : a.holding = none ∧ a ≠ .handling (.done .reportRejected) := by
    rcases Actor.newcomer_cases hnew with rfl | ⟨id, rfl⟩ | rfl | ⟨job, rfl⟩ <;> exact ⟨rfl, nofun⟩
  have back {j : Nat} {job : Job} (hj : Holds { s with actors := s.actors ++ [a] } j job) :
      s.Holds j job := by
    obtain ⟨b, hb, hholding⟩ := Option.bind_eq_some_iff.1 hj
    rcases getElem?_concat_cases hb with hb | rfl
    · exact holds_of_holding hb hholding
    · rw [hnone] at hholding; cases hholding
  refine ⟨?_, ?_, ?_⟩
  · intro i job hi
    exact h.held i job (back hi)
  · intro i j job job' hi hj hid
    exact h.sole i j job job' (back hi) (back hj) hid
  · intro hmem
    rcases List.mem_append.1 hmem with hmem | hmem
    · exact h.upheld hmem
    · exact hne (List.mem_singleton.1 hmem).symm

theorem step (h : s.Custody) {action : Action} (lawful : action.lawful s = true) {s' : Scene}
    (hstep : s.step action = some s') : s'.Custody := by
  cases action with
  | enter a => cases hstep; exact h.enter lawful
  | offer id => cases hstep; exact ⟨h.held, h.sole, h.upheld⟩
  | close => cases hstep; exact ⟨h.held, h.sole, h.upheld⟩
  | act i cue =>
    obtain ⟨a, a', p, ha, hs, rfl⟩ := step_act_iff.1 hstep
    obtain ⟨d, heffect, hdoes⟩ := Actor.step_does hs
    refine h.deed ha hdoes heffect (fresh_of_lawful lawful ha hdoes) ?_
    rintro rfl
    obtain ⟨job, hholding, hrefused⟩ := Actor.holding_of_rejected hs
    obtain ⟨hget, processing⟩ := h.held i job (holds_of_holding ha hholding)
    exact hrefused job hget processing

theorem of_reaches {p : Pipeline} (run : (Scene.of p).Reaches Action.lawful s) : s.Custody := by
  refine run.invariant ?_ (of_pipeline p)
  intro s action s' h lawful hstep
  exact h.step lawful hstep

end Custody
end Scene

/-- **What happens to a record, and who may do it.** Whatever operations follow the creation of a
new record, its history is orderly. And in every order of steps, no two actors hold the same record,
and no report is refused. -/
theorem orderly_history_and_sole_custody :
    (∀ {s s₁ : Store} {origin : Job} {cancelled : Bool} {ops : List Operation},
      s.create origin cancelled = .ok s₁ → origin.isNew = true →
      (∀ op ∈ ops, op.creates origin.id = false) →
      ∃ job, (s₁.applyAll ops).get? origin.id = some job ∧
        Orderly origin (Store.history origin.id ops s₁) job) ∧
    ∀ {p : Pipeline} {s : Scene}, (Scene.of p).Reaches Action.lawful s →
      (∀ i j job job', s.Holds i job → s.Holds j job' → job.id = job'.id → i = j) ∧
        Actor.handling (.done .reportRejected) ∉ s.actors := by
  constructor
  · intro s s₁ origin cancelled ops created new once
    have pending : origin.status = .pending := by simp [Job.isNew] at new; exact new.1
    have hget : s₁.get? origin.id = some origin := by rw [Store.get?_create created, if_pos rfl]
    obtain ⟨job, hjob, course⟩ := Course.created.run pending hget once
    exact ⟨job, hjob, course.orderly new⟩
  · intro p s run
    have custody := Scene.Custody.of_reaches run
    exact ⟨custody.sole, custody.upheld⟩

def freshJob : Job := ⟨⟨"a"⟩, "email_send", .pending, [], 0, 3, none, ⟨0, 0⟩⟩

/-- The job fails once and then succeeds, and two workers that are handed its id do not
both hold it. -/
theorem orderly_history_of_freshJob :
    (∃ job, ((⟨[⟨0, freshJob⟩], 1⟩ : Store).applyAll
        [.claim ⟨"a"⟩, .claim ⟨"a"⟩, .fail ⟨"a"⟩ "no route", .recover false, .claim ⟨"a"⟩,
          .succeed ⟨"a"⟩]).get? ⟨"a"⟩ =
          some job ∧
      Orderly freshJob (Store.history ⟨"a"⟩
        [.claim ⟨"a"⟩, .claim ⟨"a"⟩, .fail ⟨"a"⟩ "no route", .recover false, .claim ⟨"a"⟩,
          .succeed ⟨"a"⟩]
          ⟨[⟨0, freshJob⟩], 1⟩) job) ∧
    ∃ s, (Scene.of ⟨⟨[⟨0, freshJob⟩], 1⟩, .ofCapacity 1, .zero⟩).Reaches Action.lawful s ∧
      s.Holds 1 freshJob.started ∧ (∀ job, s.Holds 0 job → job.id ≠ freshJob.id) ∧
      Actor.handling (.done .reportRejected) ∉ s.actors := by
  have created : Store.create .empty freshJob false = .ok ⟨[⟨0, freshJob⟩], 1⟩ := rfl
  refine ⟨orderly_history_and_sole_custody.1 created rfl (by decide), ?_⟩
  let actions : List Action :=
    [.enter (.handling (.claiming ⟨"a"⟩)), .enter (.handling (.claiming ⟨"a"⟩)), .go 1, .go 0,
      .go 1, .go 1]
  have run : (Scene.of ⟨⟨[⟨0, freshJob⟩], 1⟩, .ofCapacity 1, .zero⟩).Reaches Action.lawful _ :=
    Scene.reaches_of_play actions rfl
  obtain ⟨sole, upheld⟩ := orderly_history_and_sole_custody.2 run
  refine ⟨_, run, rfl, ?_, upheld⟩
  intro job h hid
  exact absurd (sole 0 1 job freshJob.started h rfl hid) (by decide)

/-- A pending, unclaimed job that was put into the store with the error of a former life. -/
def rememberingJob : Job := ⟨⟨"a"⟩, "email_send", .pending, [], 0, 3, some "no route", ⟨0, 0⟩⟩

/-- Its record shows an error before any failure has been reported. -/
theorem lastError_before_any_failure :
    ¬ ∀ (s s₁ : Store) (origin : Job) (cancelled : Bool) (ops : List Operation) (job : Job),
      s.create origin cancelled = .ok s₁ → origin.status = .pending → origin.attempts = 0 →
      (∀ op ∈ ops, op.creates origin.id = false) → (s₁.applyAll ops).get? origin.id = some job →
      job.lastError = ((Store.history origin.id ops s₁).filterMap Happening.reason?).getLast? := by
  intro h
  have hnone :=
    h .empty ⟨[⟨0, rememberingJob⟩], 1⟩ rememberingJob false [] rememberingJob rfl rfl rfl
    (fun _ ho => nomatch ho) rfl
  cases hnone

end JobPipeline
