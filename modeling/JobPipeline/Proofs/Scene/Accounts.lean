import JobPipeline.Proofs.Scene.Deeds

/-!
# Figures of the store and readings of the ledger

Each `Counter` of the ledger stands for a figure of the store. What a deed incurs is its change of
the figures (`Deed.Effect.figure`), and what it settles is its change of the readings
(`Deed.Effect.reading`), provided that no reading is taken below zero. Three inequalities about
single deeds (`Actor.Does.held`, `spent` and `credited`) are what that will follow from.
-/

namespace JobPipeline

/-- The counters of the ledger that stand for a figure of the store. -/
inductive Counter
  | created
  | completed
  | failed
  | inProgress
deriving DecidableEq, Repr

/-- What a record contributes to the figure that a counter stands for. -/
def Counter.weight : Counter → Job → Nat
  | .created, _ => 1
  | .completed, job => (decide (job.status = .completed)).toNat
  | .failed, job => (decide (job.status = .failed)).toNat
  | .inProgress, job => (decide (job.status = .processing)).toNat

def Store.figure (c : Counter) (s : Store) : Nat := s.total c.weight

namespace Ledger

def reading (l : Ledger) : Counter → UInt64
  | .created => l.created
  | .completed => l.completed
  | .failed => l.failed
  | .inProgress => l.inProgress

/-- What an event adds to a counter. -/
def Event.change : Counter → Event → Int
  | .created, .created => 1
  | .completed, .completed => 1
  | .failed, .failed => 1
  | .failed, .retried => -1
  | .failed, .failureReported false => 1
  | .inProgress, .claimed => 1
  | .inProgress, .completed => -1
  | .inProgress, .failed => -1
  | .inProgress, .failureReported _ => -1
  | _, _ => 0

def changes (c : Counter) (es : List Event) : Int := (es.map (Event.change c)).sum

/-- The event would take a counter below zero. -/
def Event.Underflows (l : Ledger) : Event → Prop
  | .completed => l.inProgress = 0
  | .failed => l.inProgress = 0
  | .failureReported _ => l.inProgress = 0
  | .retried => l.failed = 0
  | _ => False

theorem toNat_saturatingPred (n : UInt64) : (saturatingPred n).toNat = n.toNat - 1 := by
  unfold saturatingPred
  split
  · rename_i h; subst h; rfl
  · rename_i h
    have hn : n.toNat ≠ 0 := fun h' => h (UInt64.toNat_inj.1 h')
    rw [UInt64.toNat_sub_of_le _ _
      (by rw [UInt64.le_iff_toNat_le]; exact Nat.one_le_iff_ne_zero.2 hn)]
    rfl

theorem toNat_succ {n : UInt64} (h : n.toNat + 1 < 2 ^ 64) : (n + 1).toNat = n.toNat + 1 := by
  rw [UInt64.toNat_add]; exact Nat.mod_eq_of_lt h

/-- An event that neither underflows nor overflows changes each reading as it says. -/
theorem reading_record {l : Ledger} {e : Event} {c : Counter} (under : ¬ e.Underflows l)
    (room : (l.reading c).toNat + 1 < 2 ^ 64) :
    (((l.record e).reading c).toNat : Int) = (l.reading c).toNat + e.change c := by
  have ne_zero {n : UInt64} (h : ¬ n = 0) : 1 ≤ n.toNat :=
    Nat.one_le_iff_ne_zero.2 fun h' => h (UInt64.toNat_inj.1 h')
  have down {n : UInt64} (h : ¬ n = 0) : ((saturatingPred n).toNat : Int) = n.toNat + -1 := by
    rw [toNat_saturatingPred]; have := ne_zero h; omega
  have up {n : UInt64} (h : n.toNat + 1 < 2 ^ 64) : ((n + 1).toNat : Int) = n.toNat + 1 := by
    rw [toNat_succ h]; rfl
  have same (n : UInt64) : (n.toNat : Int) = n.toNat + 0 := by omega
  cases c with
  | created =>
    cases e with
    | created => exact up room
    | failureReported retry => cases retry <;> exact same _
    | _ => exact same _
  | completed =>
    cases e with
    | completed => exact up room
    | failureReported retry => cases retry <;> exact same _
    | _ => exact same _
  | failed =>
    cases e with
    | failed => exact up room
    | retried => exact down under
    | failureReported retry =>
      cases retry with
      | true => exact same _
      | false => exact up room
    | _ => exact same _
  | inProgress =>
    cases e with
    | claimed => exact up room
    | completed => exact down under
    | failed => exact down under
    | failureReported retry => cases retry <;> exact down under
    | _ => exact same _

@[simp] theorem changes_nil (c : Counter) : changes c [] = 0 := rfl

@[simp] theorem changes_cons (c : Counter) (e : Event) (es : List Event) :
    changes c (e :: es) = e.change c + changes c es := by simp [changes]

@[simp] theorem changes_append (c : Counter) (es fs : List Event) :
    changes c (es ++ fs) = changes c es + changes c fs := by simp [changes]

@[simp] theorem changes_replicate (c : Counter) (n : Nat) (e : Event) :
    changes c (List.replicate n e) = n * e.change c := by simp [changes]

end Ledger

open Ledger (changes)

namespace Deed

variable {d : Deed} {p p' : Pipeline}

/-- What a deed does to a total over the records. -/
def Shifts (f : Job → Nat) (s s' : Store) : Deed → Prop
  | .claim old => s'.total f + f old = s.total f + f old.started
  | .report old result => s'.total f + f old = s.total f + f (old.reported result)
  | .recover _ => s'.total f = s.total fun job => f job.swept
  | .create job => s'.total f = s.total f + f job
  | _ => s'.total f = s.total f

theorem Effect.shifts (h : d.Effect p p') (distinct : p.store.Distinct)
    (fresh : d.Fresh p.store) (f : Job → Nat) :
    d.Shifts f p.store p'.store := by
  cases d with
  | rest => rw [h.1]; exact rfl
  | tell e => rw [h.1]; exact rfl
  | claim old => rw [h.2.2.1]; exact distinct.total_set h.1 f
  | report old result => rw [h.2.2.1]; exact distinct.total_set h.1 f
  | recover n => rw [h.2.1]; exact Store.total_swept _ f
  | create job => exact Store.total_create h.1 fresh.2 f

theorem Effect.distinct (h : d.Effect p p') (distinct : p.store.Distinct) : p'.store.Distinct := by
  cases d with
  | rest => rw [h.1]; exact distinct
  | tell e => rw [h.1]; exact distinct
  | claim old => rw [h.2.2.1]; exact distinct.set rfl
  | report old result => rw [h.2.2.1]; exact distinct.set (Job.id_reported _ _)
  | recover n => rw [h.2.1]; exact distinct.swept
  | create job => exact distinct.create h.1

theorem weight_started {old : Job} (h : old.status = .pending) (c : Counter) :
    (c.weight old.started : Int) = c.weight old + Ledger.Event.change c .claimed := by
  cases c <;> simp [Counter.weight, Ledger.Event.change, h]

theorem weight_reported {old : Job} (h : old.status = .processing) (result : WorkResult)
    (c : Counter) :
    (c.weight (old.reported result) : Int) =
      c.weight old + Ledger.Event.change c (reportEvent old result) := by
  cases result with
  | success => cases c <;> simp [Counter.weight, Ledger.Event.change, reportEvent, Job.reported, h]
  | failure reason =>
    cases hv : old.verdict <;> cases c <;>
      simp [Counter.weight, Ledger.Event.change, reportEvent, Job.reported, Verdict.status, h, hv]

/-- A sweep takes the lapsed records out of the failed ones and leaves the other figures. -/
theorem weight_swept (job : Job) (c : Counter) :
    c.weight job.swept + (if c = .failed then job.lapsed.toNat else 0) = c.weight job := by
  by_cases hl : job.lapsed = true
  · have hs : job.status = .failed := by simp [Job.lapsed] at hl; exact hl.1
    cases c <;> simp [Counter.weight, Job.swept, hl, hs]
  · simp only [Bool.not_eq_true] at hl
    simp [Job.swept_of_not_lapsed hl, hl]

theorem figure_swept (s : Store) (c : Counter) :
    (s.swept.figure c : Int) = s.figure c +
      changes c (List.replicate (s.entries.countP fun e => e.job.lapsed) .retried) := by
  have h := Store.total_add s (fun job => c.weight job.swept)
    fun job => if c = .failed then job.lapsed.toNat else 0
  simp only [weight_swept] at h
  have hswept : s.swept.figure c = s.total fun job => c.weight job.swept :=
    Store.total_swept s c.weight
  have hfigure : s.figure c = s.total fun job => c.weight job := rfl
  rw [Ledger.changes_replicate, Store.countP_eq_total, hswept, hfigure, h]
  have hzero : (s.total fun _ => 0) = 0 := by simp [Store.total]
  cases c with
  | failed => simp only [Ledger.Event.change, if_true]; omega
  | _ => simp [Ledger.Event.change, hzero]

/-- **What a deed incurs is its change of the figures.** -/
theorem Effect.figure (h : d.Effect p p') (distinct : p.store.Distinct)
    (fresh : d.Fresh p.store) (c : Counter) :
    (p'.store.figure c : Int) = p.store.figure c + changes c d.incurs := by
  have ht := h.shifts distinct fresh c.weight
  simp only [Store.figure]
  cases d with
  | rest => rw [h.1]; simp [incurs]
  | tell e => rw [h.1]; simp [incurs]
  | claim old =>
    simp only [Shifts] at ht
    have := weight_started h.2.1 c
    simp only [incurs, Ledger.changes_cons, Ledger.changes_nil]; omega
  | report old result =>
    simp only [Shifts] at ht
    have := weight_reported h.2.1 result c
    simp only [incurs, Ledger.changes_cons, Ledger.changes_nil]; omega
  | recover n => rw [h.2.1, h.1]; exact figure_swept p.store c
  | create job =>
    simp only [Shifts] at ht
    have hnew : job.status = .pending := by
      have := fresh.1; simp [Job.isNew] at this; exact this.1
    have hw : (c.weight job : Int) = Ledger.Event.change c .created := by
      cases c <;> simp [Counter.weight, Ledger.Event.change, hnew]
    simp only [incurs, Ledger.changes_cons, Ledger.changes_nil]; omega

/-- What a deed settles is its change of the readings. -/
theorem Effect.reading (h : d.Effect p p') (under : ∀ e ∈ d.settles, ¬ e.Underflows p.ledger)
    (c : Counter) (room : (p.ledger.reading c).toNat + 1 < 2 ^ 64) :
    ((p'.ledger.reading c).toNat : Int) = (p.ledger.reading c).toNat + changes c d.settles := by
  cases d with
  | rest => rw [h.2]; simp [settles]
  | tell e =>
    rw [h.2, Ledger.reading_record (under e (by simp [settles])) room]
    simp [settles]
  | claim old => rw [h.2.2.2]; simp [settles]
  | report old result => rw [h.2.2.2]; simp [settles]
  | recover n => rw [h.2.2]; simp [settles]
  | create job => rw [h.2]; simp [settles]

end Deed

namespace Actor

variable {a a' : Actor} {d : Deed} {p p' : Pipeline}

/-- Who takes a record into its hands makes it processing, and who lets it go does so no earlier. -/
theorem Does.held (h : a.Does d a') (e : d.Effect p p') (distinct : p.store.Distinct)
    (fresh : d.Fresh p.store) :
    a'.holding.isSome.toNat + p.store.figure .inProgress ≤
      a.holding.isSome.toNat + p'.store.figure .inProgress := by
  have hf := e.figure distinct fresh .inProgress
  cases h with
  | rest _ holding =>
    have hle : a'.holding.isSome.toNat ≤ a.holding.isSome.toNat := by
      rcases holding with h | h <;> simp [h]
    simp only [Deed.incurs, Ledger.changes_nil] at hf; omega
  | fail _ reason =>
    simp [Deed.incurs, Deed.reportEvent, Ledger.Event.change] at hf
    simp [Actor.holding]; omega
  | recover n =>
    simp [Deed.incurs, Ledger.Event.change] at hf
    simp [Actor.holding]; omega
  | _ =>
    simp [Deed.incurs, Deed.reportEvent, Ledger.Event.change] at hf
    simp [Actor.holding]; omega

/-- Who owes the ledger an exhaustion has put a record among those that failed for good, and none
ever leaves them. -/
theorem Does.spent (h : a.Does d a') (e : d.Effect p p') (distinct : p.store.Distinct)
    (fresh : d.Fresh p.store) :
    a'.owed.count (.failureReported false) + (p.store.total fun job => job.spent.toNat) ≤
      a.owed.count (.failureReported false) + p'.store.total fun job => job.spent.toNat := by
  have ht := e.shifts distinct fresh fun job => job.spent.toNat
  cases h with
  | rest owed => exact Nat.le_of_eq (by rw [owed, e.1])
  | claim old =>
    have hold : old.spent = false := by simp [Job.spent, e.2.1]
    simp [Deed.Shifts, hold] at ht
    simp [Actor.owed]; omega
  | succeed =>
    rename_i old _
    have hold : old.spent = false := by simp [Job.spent, e.2.1]
    simp [Deed.Shifts, hold] at ht
    simp [Actor.owed]; omega
  | fail _ reason =>
    rename_i old _
    have hold : old.spent = false := by simp [Job.spent, e.2.1]
    simp [Deed.Shifts, hold, Job.spent_reported_failure] at ht
    cases hv : old.verdict <;> simp [hv] at ht <;> simp [Actor.owed] <;> omega
  | recover n => simp [Deed.Shifts] at ht; simp [Actor.owed, List.count_replicate]; omega
  | credit n => simp [Deed.Shifts] at ht; simp [Actor.owed, List.count_replicate]; omega
  | _ => simp [Deed.Shifts] at ht; simp [Actor.owed]; omega

/-- A sweep owes as many credits as there were lapsed records, and no other deed makes a
record lapse. -/
theorem Does.credited (h : a.Does d a') (e : d.Effect p p') (distinct : p.store.Distinct)
    (fresh : d.Fresh p.store) :
    a'.owed.count .retried + (p'.store.total fun job => job.lapsed.toNat) + p.store.size ≤
      a.owed.count .retried + (p.store.total fun job => job.lapsed.toNat) + p'.store.size := by
  have ht := e.shifts distinct fresh fun job => job.lapsed.toNat
  have hs := e.shifts distinct fresh fun _ => 1
  simp only [Store.size_eq_total]
  cases h with
  | rest owed => exact Nat.le_of_eq (by rw [owed, e.1])
  | recover n =>
    have hn := e.1
    rw [Store.countP_eq_total] at hn
    have hzero : (p.store.total fun job => job.swept.lapsed.toNat) = 0 := by simp [Store.total]
    simp only [Deed.Shifts] at ht hs
    simp [Actor.owed]; omega
  | create job =>
    have hnew : job.lapsed = false := by
      have := fresh.1
      simp [Job.isNew] at this
      simp [Job.lapsed, this.1]
    simp only [Deed.Shifts, hnew, Bool.toNat_false] at ht hs
    simp [Actor.owed]; omega
  | _ =>
    simp [Deed.Shifts, Job.lapsed_started, Job.lapsed_reported] at ht hs
    simp [Actor.owed]; omega

/-- The few things an actor can owe. Only one that has just claimed owes the claim, and it holds
the record. -/
theorem owed_cases (a : Actor) :
    a.owed = [] ∨ (a.owed = [.claimed] ∧ a.holding.isSome = true) ∨ a.owed = [.completed] ∨
      (∃ retry, a.owed = [.failureReported retry]) ∨ (∃ n, a.owed = List.replicate n .retried) ∨
        a.owed = [.created] := by
  cases a with
  | worker w =>
    cases w with
    | handling h =>
      cases h with
      | claimed job => exact .inr (.inl ⟨rfl, rfl⟩)
      | succeeded job => exact .inr (.inr (.inl rfl))
      | failed job verdict => exact .inr (.inr (.inr (.inl ⟨_, rfl⟩)))
      | _ => exact .inl rfl
    | _ => exact .inl rfl
  | sweep s =>
    cases s with
    | crediting n report => exact .inr (.inr (.inr (.inr (.inl ⟨n, rfl⟩))))
    | _ => exact .inl rfl
  | creation c =>
    cases c with
    | stored job => exact .inr (.inr (.inr (.inr (.inr rfl))))
    | _ => exact .inl rfl

theorem changes_inProgress_le (a : Actor) :
    changes .inProgress a.owed ≤ a.holding.isSome.toNat := by
  rcases a.owed_cases with h | ⟨h, hh⟩ | h | ⟨retry, h⟩ | ⟨n, h⟩ | h <;> rw [h] <;>
    simp [Ledger.Event.change, *]

theorem neg_owing_le_changes_inProgress (a : Actor) :
    -((decide (a.owed ≠ [])).toNat : Int) ≤ changes .inProgress a.owed := by
  rcases a.owed_cases with h | ⟨h, hh⟩ | h | ⟨retry, h⟩ | ⟨n, h⟩ | h <;> rw [h] <;>
    simp [Ledger.Event.change]

theorem changes_failed_le (a : Actor) :
    changes .failed a.owed ≤ a.owed.count (.failureReported false) := by
  rcases a.owed_cases with h | ⟨h, hh⟩ | h | ⟨retry, h⟩ | ⟨n, h⟩ | h <;> rw [h]
  case inr.inr.inr.inl => cases retry <;> simp [Ledger.Event.change]
  all_goals simp [Ledger.Event.change]

theorem neg_count_le_changes_failed (a : Actor) :
    -(a.owed.count .retried : Int) ≤ changes .failed a.owed := by
  rcases a.owed_cases with h | ⟨h, hh⟩ | h | ⟨retry, h⟩ | ⟨n, h⟩ | h <;> rw [h]
  case inr.inr.inr.inl => cases retry <;> simp [Ledger.Event.change]
  all_goals simp [Ledger.Event.change]

theorem changes_created_nonneg (a : Actor) : 0 ≤ changes .created a.owed := by
  rcases a.owed_cases with h | ⟨h, hh⟩ | h | ⟨retry, h⟩ | ⟨n, h⟩ | h <;> rw [h] <;>
    simp [Ledger.Event.change]

theorem changes_completed_nonneg (a : Actor) : 0 ≤ changes .completed a.owed := by
  rcases a.owed_cases with h | ⟨h, hh⟩ | h | ⟨retry, h⟩ | ⟨n, h⟩ | h <;> rw [h] <;>
    simp [Ledger.Event.change]

end Actor

end JobPipeline
