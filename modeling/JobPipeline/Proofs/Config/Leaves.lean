import JobPipeline.Config.Coercion
import JobPipeline.Proofs.Config.Tree

/-!
# The leaves of a configuration

A `Leaf` is a field of a configuration that is not a section itself. It has a place in the tree of
settings, and a way to be read from what stands there. Each section is `ReadBy` its leaves: where
nothing but tables stands on the way to them, the section can be read exactly if every leaf can, and
a leaf for which nothing is there is left at its default.
-/

namespace JobPipeline
namespace Setting

variable {σ τ α : Type} {s : Setting} {key : String}

/-! ## One leaf -/

theorem text?_empty : text? (.table []) = none := rfl

theorem texts?_empty : texts? (.table []) = none := rfl

theorem bool?_empty : bool? (.table []) = none := rfl

theorem word16?_empty : word16? (.table []) = none := rfl

theorem word32?_empty : word32? (.table []) = none := rfl

theorem word64?_empty : word64? (.table []) = none := rfl

theorem logFormat?_empty : logFormat? (.table []) = none := rfl

/-- A field of a configuration that is not a section. Nobody reads it from an empty table. -/
structure Leaf (σ : Type) where
  {α : Type}
  path : List String
  read : Setting → Option α
  get : σ → α
  nonempty : path ≠ []
  refuses : read (.table []) = none

namespace Leaf

/-- A configuration `c` has the leaf as it is read from a setting. Without a setting it has the leaf
of the default `d`. -/
inductive TakenFrom (leaf : Leaf σ) (d c : σ) : Option Setting → Prop
  | set {v : Setting} (h : leaf.read v = some (leaf.get c)) : TakenFrom leaf d c (some v)
  | unset (h : leaf.get c = leaf.get d) : TakenFrom leaf d c none

/-- A configuration has what a tree says for the leaf. -/
def Holds (leaf : Leaf σ) (d : σ) (s : Setting) (c : σ) : Prop :=
  leaf.TakenFrom d c (at? leaf.path s)

theorem takenFrom_iff {leaf : Leaf σ} {d c : σ} {v? : Option Setting} :
    leaf.TakenFrom d c v? ↔ v?.elim (some (leaf.get d)) leaf.read = some (leaf.get c) := by
  constructor
  · rintro (h | h)
    · exact h
    · exact congrArg some h.symm
  · cases v? with
    | some v => exact .set
    | none => exact fun h => .unset (Option.some.inj h).symm

/-- A field of a section. -/
def ofField (name : String) (read : Setting → Option α) (get : σ → α)
    (refuses : read (.table []) = none) : Leaf σ :=
  ⟨[name], read, get, List.cons_ne_nil _ _, refuses⟩

/-- A leaf of a section, as a leaf of the configuration that the section is part of. -/
def under (key : String) (part : τ → σ) (leaf : Leaf σ) : Leaf τ :=
  ⟨key :: leaf.path, leaf.read, fun c => leaf.get (part c), List.cons_ne_nil _ _, leaf.refuses⟩

theorem table_of_way {leaf : Leaf σ} (way : Way leaf.path s) : s.isTable = true := by
  have nonempty := leaf.nonempty
  generalize leaf.path = p at way nonempty
  cases p with
  | nil => exact absurd rfl nonempty
  | cons k p => exact way.1

theorem holds_ofField {name : String} {read : Setting → Option α} {get : σ → α}
    {refuses : read (.table []) = none} {d c : σ} :
    (ofField name read get refuses).Holds d s c ↔
      (s.get? name).elim (some (get d)) read = some (get c) := by
  have here : at? [name] s = s.get? name := by
    rw [at?]
    cases s.get? name <;> rfl
  rw [Holds, ofField, here, takenFrom_iff]

theorem holds_under {part : τ → σ} {leaf : Leaf σ} {d c : τ} :
    (leaf.under key part).Holds d s c ↔
      leaf.Holds (part d) ((s.get? key).getD (.table [])) (part c) := by
  have below : at? (key :: leaf.path) s = at? leaf.path ((s.get? key).getD (.table [])) := by
    have nonempty := leaf.nonempty
    generalize leaf.path = p at nonempty
    cases p with
    | nil => exact absurd rfl nonempty
    | cons k p => exact (at?_below key p s).symm
  rw [Holds, Holds, under, below, takenFrom_iff, takenFrom_iff]

end Leaf

/-! ## Sections -/

theorem field_of_table (table : s.isTable = true) (i : Nat) (name : String)
    (read : Setting → Option α) (default : α) :
    s.field i name read default = (s.get? name).elim (some default) read := by
  cases s with
  | table es => rw [field, get?, entries]; cases es.lookup name <;> rfl
  | _ => cases table

/-- A section that is not there is like an empty table. -/
theorem field_section {f : Setting → Option α} {default : α} (table : s.isTable = true)
    (empty : f (.table []) = some default) (i : Nat) (name : String) :
    s.field i name f default = f ((s.get? name).getD (.table [])) := by
  rw [field_of_table table]
  cases s.get? name with
  | none => exact empty.symm
  | some v => rfl

/-- A section is read from its leaves. -/
structure ReadBy (d : σ) (f : Setting → Option σ) (leaves : List (Leaf σ)) : Prop where
  empty : f (.table []) = some d
  sound : ∀ {s c}, f s = some c → ∀ leaf ∈ leaves, Way leaf.path s → leaf.Holds d s c
  complete : ∀ {s c}, (∀ leaf ∈ leaves, Way leaf.path s) → (∀ leaf ∈ leaves, leaf.Holds d s c) →
    f s = some c

variable {f : Setting → Option σ}

/-- Trees with the same leaves give the same section. -/
theorem ReadBy.congr {d : σ} {leaves : List (Leaf σ)} (read : ReadBy d f leaves) {s t : Setting}
    (ways : ∀ leaf ∈ leaves, Way leaf.path s ∧ Way leaf.path t)
    (same : ∀ leaf ∈ leaves, at? leaf.path s = at? leaf.path t) : f s = f t := by
  have holds {c : σ} : (∀ leaf ∈ leaves, leaf.Holds d s c) ↔ ∀ leaf ∈ leaves, leaf.Holds d t c :=
    forall₂_congr fun leaf hleaf => by rw [Leaf.Holds, Leaf.Holds, same leaf hleaf]
  have sWays leaf hleaf := (ways leaf hleaf).1
  have tWays leaf hleaf := (ways leaf hleaf).2
  refine Option.ext fun c => ⟨fun h => ?_, fun h => ?_⟩
  · exact read.complete tWays (holds.1 fun leaf hleaf => read.sound h leaf hleaf (sWays leaf hleaf))
  · exact read.complete sWays (holds.2 fun leaf hleaf => read.sound h leaf hleaf (tWays leaf hleaf))

/-- A table is read field by field. -/
theorem ReadBy.ofFields {d : σ} {leaves : List (Leaf σ)} (empty : f (.table []) = some d)
    (nonempty : leaves ≠ [])
    (fields : ∀ {s c}, s.isTable = true → (f s = some c ↔ ∀ leaf ∈ leaves, leaf.Holds d s c)) :
    ReadBy d f leaves where
  empty := empty
  sound h leaf hleaf way := (fields (Leaf.table_of_way way)).1 h leaf hleaf
  complete ways holds := by
    obtain ⟨leaf, hleaf⟩ := List.exists_mem_of_ne_nil _ nonempty
    exact (fields (Leaf.table_of_way (ways leaf hleaf))).2 holds

section
variable {c : τ} {leaves : List (Leaf σ)} (part : τ → σ) (d : τ) (i : Nat)

theorem ReadBy.under_sound (part_read : ReadBy (part d) f leaves)
    (h : s.field i key f (part d) = some (part c)) :
    ∀ leaf ∈ leaves.map (Leaf.under key part), Way leaf.path s → leaf.Holds d s c := by
  rintro _ hleaf way
  obtain ⟨leaf, mem, rfl⟩ := List.mem_map.1 hleaf
  rw [field_section (Leaf.table_of_way way) part_read.empty] at h
  exact Leaf.holds_under.2 (part_read.sound h leaf mem (way_below way))

theorem ReadBy.under_complete (part_read : ReadBy (part d) f leaves) (table : s.isTable = true)
    (ways : ∀ leaf ∈ leaves.map (Leaf.under key part), Way leaf.path s)
    (holds : ∀ leaf ∈ leaves.map (Leaf.under key part), leaf.Holds d s c) :
    s.field i key f (part d) = some (part c) := by
  rw [List.forall_mem_map] at ways holds
  rw [field_section table part_read.empty]
  exact part_read.complete (fun leaf hleaf => way_below (ways leaf hleaf))
    fun leaf hleaf => Leaf.holds_under.1 (holds leaf hleaf)

end

end Setting

open Setting

/-! ## The sections of the job system -/

def QueueConfig.leaves : List (Leaf QueueConfig) :=
  [.ofField "capacity" word64? (·.capacity) word64?_empty]

theorem QueueConfig.readBy : ReadBy {} QueueConfig.ofSetting? QueueConfig.leaves := by
  refine .ofFields rfl (List.cons_ne_nil _ _) fun {s c} table => ?_
  simp only [QueueConfig.ofSetting?, leaves, field_of_table table, List.forall_mem_cons,
    Leaf.holds_ofField, Option.bind_eq_bind, Option.bind_eq_some_iff, Option.pure_def,
    Option.some.injEq]
  constructor
  · rintro ⟨capacity, h, rfl⟩
    exact ⟨h, List.forall_mem_nil _⟩
  · rintro ⟨h, -⟩
    exact ⟨_, h, rfl⟩

def WorkerConfig.leaves : List (Leaf WorkerConfig) := [
  .ofField "concurrency" word64? (·.concurrency) word64?_empty,
  .ofField "workload_latency_ms" word64? (·.workloadLatencyMs) word64?_empty,
  .ofField "failing_job_type" text? (·.failingKind) text?_empty,
  .ofField "shutdown_timeout_secs" word64? (·.shutdownTimeoutSecs) word64?_empty]

theorem WorkerConfig.readBy : ReadBy {} WorkerConfig.ofSetting? WorkerConfig.leaves := by
  refine .ofFields rfl (List.cons_ne_nil _ _) fun {s c} table => ?_
  simp only [WorkerConfig.ofSetting?, leaves, field_of_table table, List.forall_mem_cons,
    Leaf.holds_ofField, Option.bind_eq_bind, Option.bind_eq_some_iff, Option.pure_def,
    Option.some.injEq]
  constructor
  · rintro ⟨concurrency, h₁, latency, h₂, kind, h₃, timeout, h₄, rfl⟩
    exact ⟨h₁, h₂, h₃, h₄, List.forall_mem_nil _⟩
  · rintro ⟨h₁, h₂, h₃, h₄, -⟩
    exact ⟨_, h₁, _, h₂, _, h₃, _, h₄, rfl⟩

def SweeperConfig.leaves : List (Leaf SweeperConfig) :=
  [.ofField "interval_ms" word64? (·.intervalMs) word64?_empty]

theorem SweeperConfig.readBy : ReadBy {} SweeperConfig.ofSetting? SweeperConfig.leaves := by
  refine .ofFields rfl (List.cons_ne_nil _ _) fun {s c} table => ?_
  simp only [SweeperConfig.ofSetting?, leaves, field_of_table table, List.forall_mem_cons,
    Leaf.holds_ofField, Option.bind_eq_bind, Option.bind_eq_some_iff, Option.pure_def,
    Option.some.injEq]
  constructor
  · rintro ⟨interval, h, rfl⟩
    exact ⟨h, List.forall_mem_nil _⟩
  · rintro ⟨h, -⟩
    exact ⟨_, h, rfl⟩

def RetryConfig.leaves : List (Leaf RetryConfig) :=
  [.ofField "max_retries" word32? (·.maxRetries) word32?_empty]

theorem RetryConfig.readBy : ReadBy {} RetryConfig.ofSetting? RetryConfig.leaves := by
  refine .ofFields rfl (List.cons_ne_nil _ _) fun {s c} table => ?_
  simp only [RetryConfig.ofSetting?, leaves, field_of_table table, List.forall_mem_cons,
    Leaf.holds_ofField, Option.bind_eq_bind, Option.bind_eq_some_iff, Option.pure_def,
    Option.some.injEq]
  constructor
  · rintro ⟨retries, h, rfl⟩
    exact ⟨h, List.forall_mem_nil _⟩
  · rintro ⟨h, -⟩
    exact ⟨_, h, rfl⟩

def JobsConfig.leaves : List (Leaf JobsConfig) :=
  QueueConfig.leaves.map (.under "queue" JobsConfig.queue) ++
  (WorkerConfig.leaves.map (.under "worker" JobsConfig.worker) ++
  (SweeperConfig.leaves.map (.under "sweeper" JobsConfig.sweeper) ++
  RetryConfig.leaves.map (.under "retry" JobsConfig.retry)))

theorem JobsConfig.readBy : ReadBy {} JobsConfig.ofSetting? JobsConfig.leaves := by
  refine ⟨rfl, fun {s c} h => ?_, fun {s c} ways holds => ?_⟩
  · simp only [JobsConfig.ofSetting?, Option.bind_eq_bind, Option.bind_eq_some_iff, Option.pure_def,
      Option.some.injEq] at h
    obtain ⟨queue, hqueue, worker, hworker, sweeper, hsweeper, retry, hretry, rfl⟩ := h
    simp only [leaves, List.forall_mem_append]
    exact ⟨QueueConfig.readBy.under_sound JobsConfig.queue {} 0 hqueue,
      WorkerConfig.readBy.under_sound JobsConfig.worker {} 1 hworker,
      SweeperConfig.readBy.under_sound JobsConfig.sweeper {} 2 hsweeper,
      RetryConfig.readBy.under_sound JobsConfig.retry {} 3 hretry⟩
  · have table := Leaf.table_of_way (ways _ (List.mem_append_left _ List.mem_cons_self))
    simp only [leaves, List.forall_mem_append] at ways holds
    obtain ⟨queueWays, workerWays, sweeperWays, retryWays⟩ := ways
    obtain ⟨queueHolds, workerHolds, sweeperHolds, retryHolds⟩ := holds
    have hqueue : s.field 0 "queue" QueueConfig.ofSetting? default = some c.queue :=
      QueueConfig.readBy.under_complete JobsConfig.queue {} 0 table queueWays queueHolds
    have hworker : s.field 1 "worker" WorkerConfig.ofSetting? default = some c.worker :=
      WorkerConfig.readBy.under_complete JobsConfig.worker {} 1 table workerWays workerHolds
    have hsweeper : s.field 2 "sweeper" SweeperConfig.ofSetting? default = some c.sweeper :=
      SweeperConfig.readBy.under_complete JobsConfig.sweeper {} 2 table sweeperWays sweeperHolds
    have hretry : s.field 3 "retry" RetryConfig.ofSetting? default = some c.retry :=
      RetryConfig.readBy.under_complete JobsConfig.retry {} 3 table retryWays retryHolds
    simp only [JobsConfig.ofSetting?, hqueue, hworker, hsweeper, hretry, Option.bind_eq_bind,
      Option.bind_some, Option.pure_def]

/-! ## The sections of the application -/

def AppMetadata.leaves : List (Leaf AppMetadata) := [
  .ofField "name" text? (·.name) text?_empty,
  .ofField "version" text? (·.version) text?_empty,
  .ofField "environment" text? (·.environment) text?_empty]

theorem AppMetadata.readBy : ReadBy {} AppMetadata.ofSetting? AppMetadata.leaves := by
  refine .ofFields rfl (List.cons_ne_nil _ _) fun {s c} table => ?_
  simp only [AppMetadata.ofSetting?, leaves, field_of_table table, List.forall_mem_cons,
    Leaf.holds_ofField, Option.bind_eq_bind, Option.bind_eq_some_iff, Option.pure_def,
    Option.some.injEq]
  constructor
  · rintro ⟨name, h₁, version, h₂, environment, h₃, rfl⟩
    exact ⟨h₁, h₂, h₃, List.forall_mem_nil _⟩
  · rintro ⟨h₁, h₂, h₃, -⟩
    exact ⟨_, h₁, _, h₂, _, h₃, rfl⟩

def ServerConfig.leaves : List (Leaf ServerConfig) := [
  .ofField "rest_host" text? (·.host) text?_empty,
  .ofField "rest_port" word16? (·.port) word16?_empty,
  .ofField "max_body_size" word64? (·.maxBodySize) word64?_empty,
  .ofField "cors_enabled" bool? (·.corsEnabled) bool?_empty,
  .ofField "cors_origins" texts? (·.corsOrigins) texts?_empty]

theorem ServerConfig.readBy : ReadBy {} ServerConfig.ofSetting? ServerConfig.leaves := by
  refine .ofFields rfl (List.cons_ne_nil _ _) fun {s c} table => ?_
  simp only [ServerConfig.ofSetting?, leaves, field_of_table table, List.forall_mem_cons,
    Leaf.holds_ofField, Option.bind_eq_bind, Option.bind_eq_some_iff, Option.pure_def,
    Option.some.injEq]
  constructor
  · rintro ⟨host, h₁, port, h₂, size, h₃, enabled, h₄, origins, h₅, rfl⟩
    exact ⟨h₁, h₂, h₃, h₄, h₅, List.forall_mem_nil _⟩
  · rintro ⟨h₁, h₂, h₃, h₄, h₅, -⟩
    exact ⟨_, h₁, _, h₂, _, h₃, _, h₄, _, h₅, rfl⟩

def ObservabilityConfig.leaves : List (Leaf ObservabilityConfig) := [
  .ofField "log_level" text? (·.logLevel) text?_empty,
  .ofField "log_format" logFormat? (·.logFormat) logFormat?_empty]

theorem ObservabilityConfig.readBy :
    ReadBy {} ObservabilityConfig.ofSetting? ObservabilityConfig.leaves := by
  refine .ofFields rfl (List.cons_ne_nil _ _) fun {s c} table => ?_
  simp only [ObservabilityConfig.ofSetting?, leaves, field_of_table table, List.forall_mem_cons,
    Leaf.holds_ofField, Option.bind_eq_bind, Option.bind_eq_some_iff, Option.pure_def,
    Option.some.injEq]
  constructor
  · rintro ⟨level, h₁, format, h₂, rfl⟩
    exact ⟨h₁, h₂, List.forall_mem_nil _⟩
  · rintro ⟨h₁, h₂, -⟩
    exact ⟨_, h₁, _, h₂, rfl⟩

/-- Every field of the configuration that is not a section. -/
def AppConfig.leaves : List (Leaf AppConfig) :=
  AppMetadata.leaves.map (.under "app" AppConfig.app) ++
  (ServerConfig.leaves.map (.under "server" AppConfig.server) ++
  (JobsConfig.leaves.map (.under "jobs" AppConfig.jobs) ++
  ObservabilityConfig.leaves.map (.under "observability" AppConfig.observability)))

theorem AppConfig.readBy : ReadBy {} AppConfig.ofSetting? AppConfig.leaves := by
  refine ⟨rfl, fun {s c} h => ?_, fun {s c} ways holds => ?_⟩
  · simp only [AppConfig.ofSetting?, Option.bind_eq_bind, Option.bind_eq_some_iff, Option.pure_def,
      Option.some.injEq] at h
    obtain ⟨app, happ, server, hserver, jobs, hjobs, observability, hobservability, rfl⟩ := h
    simp only [leaves, List.forall_mem_append]
    exact ⟨AppMetadata.readBy.under_sound AppConfig.app {} 0 happ,
      ServerConfig.readBy.under_sound AppConfig.server {} 1 hserver,
      JobsConfig.readBy.under_sound AppConfig.jobs {} 2 hjobs,
      ObservabilityConfig.readBy.under_sound AppConfig.observability {} 3 hobservability⟩
  · have table := Leaf.table_of_way (ways _ (List.mem_append_left _ List.mem_cons_self))
    simp only [leaves, List.forall_mem_append] at ways holds
    obtain ⟨appWays, serverWays, jobsWays, observabilityWays⟩ := ways
    obtain ⟨appHolds, serverHolds, jobsHolds, observabilityHolds⟩ := holds
    have happ : s.field 0 "app" AppMetadata.ofSetting? default = some c.app :=
      AppMetadata.readBy.under_complete AppConfig.app {} 0 table appWays appHolds
    have hserver : s.field 1 "server" ServerConfig.ofSetting? default = some c.server :=
      ServerConfig.readBy.under_complete AppConfig.server {} 1 table serverWays serverHolds
    have hjobs : s.field 2 "jobs" JobsConfig.ofSetting? default = some c.jobs :=
      JobsConfig.readBy.under_complete AppConfig.jobs {} 2 table jobsWays jobsHolds
    have hobservability : s.field 3 "observability" ObservabilityConfig.ofSetting? default =
        some c.observability :=
      ObservabilityConfig.readBy.under_complete AppConfig.observability {} 3 table
        observabilityWays observabilityHolds
    simp only [AppConfig.ofSetting?, happ, hserver, hjobs, hobservability, Option.bind_eq_bind,
      Option.bind_some, Option.pure_def]

end JobPipeline
