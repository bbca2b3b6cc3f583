import JobPipeline.Proofs.Job.Attempts
import JobPipeline.Proofs.Scene.Agreement
import JobPipeline.Proofs.Store.Budget

/-!
# The counter of retries

No figure of the store stands for the counter of retries. It is found from the attempts of all
records (`Job.retries`), since an attempt that is not the first is a retry: what a deed incurs in
retries is its change of that total (`Deed.Effect.retries`), as long as jobs keep within budgets
that can be counted. So whenever nobody owes the ledger anything, the counter is the total
(`Scene.RetriesTold.retried_eq`).

Nothing bounds the number of retries but time, so the counter may have passed the greatest word, and
the law is one of words.
-/

namespace JobPipeline

/-- An event that counts as a retry. -/
def Ledger.Event.isRetry : Ledger.Event → Bool
  | .retried => true
  | .failureReported retry => retry
  | _ => false

theorem Ledger.retried_record (l : Ledger) (e : Ledger.Event) :
    (l.record e).retried = if e.isRetry then l.retried + 1 else l.retried := by
  cases e with
  | failureReported retry => cases retry <;> rfl
  | _ => rfl

/-- A job that has failed or is at an attempt has been attempted. -/
theorem Job.WithinBudget.attempts_pos {job : Job} (h : job.WithinBudget)
    (begun : job.status ≠ .pending) : 0 < job.attempts.toNat := by
  cases hs : job.status with
  | pending => exact absurd hs begun
  | processing => exact (h.claimed (.inl hs)).1
  | completed => exact (h.claimed (.inr hs)).1
  | failed => have := (h.failed hs).1; omega

namespace Deed

variable {d : Deed} {p p' : Pipeline}

/-- What a deed incurs in retries is what the attempts of the records show. -/
theorem Effect.retries (h : d.Effect p p') (distinct : p.store.Distinct) (fresh : d.Fresh p.store)
    (within : p.store.All Job.WithinBudget) (budget : p.store.All Job.Budgeted) :
    p'.store.total Job.retries =
      p.store.total Job.retries + d.incurs.countP Ledger.Event.isRetry := by
  have ht := h.shifts distinct fresh Job.retries
  cases d with
  | rest => exact ht
  | tell e => exact ht
  | claim old =>
    have hroom := (within _ _ h.1).pending h.2.1
    have hbudget := budget _ _ h.1
    have := Job.retries_started h.2.1 (Nat.lt_of_le_of_lt hroom hbudget)
    simp only [Shifts] at ht
    simp only [incurs, List.countP_singleton, Ledger.Event.isRetry, Bool.false_eq_true, if_false]
    omega
  | report old result =>
    have hpos := (within _ _ h.1).attempts_pos (by rw [h.2.1]; decide)
    have := Job.retries_reported h.2.1 hpos result
    have hretry : (reportEvent old result).isRetry =
        decide ((old.reported result).status = .pending) := by
      cases result with
      | success => rfl
      | failure reason =>
        cases hv : old.verdict <;>
          simp [reportEvent, Ledger.Event.isRetry, Job.reported, hv, Verdict.status]
    simp only [Shifts] at ht
    simp only [incurs, List.countP_singleton, hretry]
    cases hp : decide ((old.reported result).status = .pending) <;> simp [hp] at this ⊢ <;> omega
  | recover n =>
    have calm : p.store.All (·.lapsed = false) := fun id job hget => (within id job hget).not_lapsed
    have hzero : n = 0 := by
      rw [h.1, List.countP_eq_zero]
      intro e he
      simp [calm _ _ (distinct.get?_of_mem he)]
    rw [h.2.1, distinct.swept_eq calm, hzero]
    rfl
  | create job =>
    have hnew : job.retries = 0 := by
      have := fresh.1
      simp only [Job.isNew, Bool.and_eq_true, decide_eq_true_eq] at this
      simp [Job.retries, this]
    simp only [Shifts, hnew] at ht
    exact ht

/-- What a deed settles in retries is what the counter shows. -/
theorem Effect.retried (h : d.Effect p p') : (p'.ledger.retried.toNat) % 2 ^ 64 =
    (p.ledger.retried.toNat + d.settles.countP Ledger.Event.isRetry) % 2 ^ 64 := by
  cases d with
  | rest => rw [h.2]; rfl
  | tell e =>
    rw [h.2, Ledger.retried_record]
    cases he : e.isRetry with
    | true => simp [settles, he, UInt64.toNat_add]
    | false => simp [settles, he]
  | claim old => rw [h.2.2.2]; rfl
  | report old result => rw [h.2.2.2]; rfl
  | recover n => rw [h.2.2]; rfl
  | create job => rw [h.2]; rfl

end Deed

namespace Scene

/-- The counter of retries, with those owed, is what the attempts show. -/
def RetriesTold (s : Scene) : Prop :=
  ((s.ledger.retried.toNat : Int) + s.sum (fun a => a.owed.countP Ledger.Event.isRetry) -
    s.store.total Job.retries) % 2 ^ 64 = 0

namespace RetriesTold

variable {s : Scene}

theorem deed (h : s.RetriesTold) {i : Nat} {a a' : Actor} {d : Deed} {p : Pipeline}
    (ha : s.actors[i]? = some a) (hdoes : a.Does d a') (heffect : d.Effect s.pipeline p)
    (fresh : d.Fresh s.store) (distinct : s.store.Distinct)
    (within : s.store.All Job.WithinBudget) (budget : s.store.All Job.Budgeted) :
    RetriesTold ⟨p, s.actors.set i a'⟩ := by
  have hcount := congrArg (List.countP Ledger.Event.isRetry) hdoes.owed_eq
  rw [List.countP_append, List.countP_append] at hcount
  have htotal := heffect.retries distinct fresh within budget
  have hcounter := heffect.retried
  have hsum := sum_map_set (fun a : Actor => (a.owed.countP Ledger.Event.isRetry : Int)) ha a'
  simp only [RetriesTold, Scene.store, Scene.ledger, Scene.sum] at *
  omega

theorem enter (h : s.RetriesTold) {a : Actor} (howed : a.owed = []) :
    RetriesTold { s with actors := s.actors ++ [a] } := by
  have hsum : Scene.sum (fun a => a.owed.countP Ledger.Event.isRetry)
      { s with actors := s.actors ++ [a] } =
      s.sum fun a => a.owed.countP Ledger.Event.isRetry := by simp [Scene.sum, howed]
  rw [RetriesTold, hsum]
  exact h

/-- Where nothing is owed, the counter of retries is what the attempts show. -/
theorem retried_eq (h : s.RetriesTold) (quiet : s.Quiet) :
    s.ledger.retried.toNat = s.store.total Job.retries % 2 ^ 64 := by
  have hzero : s.sum (fun a => a.owed.countP Ledger.Event.isRetry) = 0 := by
    apply List.sum_eq_zero
    intro x hx
    obtain ⟨a, ha, rfl⟩ := List.mem_map.1 hx
    rw [quiet a ha]; rfl
  have hlt := s.ledger.retried.toNat_lt
  simp only [RetriesTold] at h
  omega

end RetriesTold
end Scene
end JobPipeline
