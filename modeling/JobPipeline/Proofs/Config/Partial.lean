import JobPipeline.Proofs.Config.Leaves
import JobPipeline.Proofs.Json.Defaults

/-!
# Configurations that are given in part

Every field of a configuration has a default, in each of its sections. So a document may show any
part of a configuration: it is read as the whole with the defaults in place of what it does not
show (`AppConfig.part_is_completed`). `completed` says what that is section by section, and
`Leaf.Completed` leaf by leaf.
-/

namespace JobPipeline

open Json (Codec Path within orDefault ofWord)
open Setting (Leaf)

variable {σ τ α : Type} {d : Nat} {D : Set Path} {name : String} {p : Path}

/-! ## Places in a set -/

namespace Json

/-- A place is in a set, or a place on the way to it is. -/
def Covers (D : Set Path) (p : Path) : Prop := ∃ q ∈ D, q ≠ [] ∧ q <+: p

theorem not_covers_nil : ¬ Covers D [] := by
  rintro ⟨q, -, nonempty, way⟩
  exact nonempty (List.prefix_nil.1 way)

theorem covers_cons : Covers D (name :: p) ↔ [name] ∈ D ∨ Covers (within name D) p := by
  constructor
  · rintro ⟨q, hq, nonempty, way⟩
    cases q with
    | nil => exact absurd rfl nonempty
    | cons k q =>
      obtain ⟨rfl, behind⟩ := List.cons_prefix_cons.1 way
      cases q with
      | nil => exact .inl hq
      | cons l q => exact .inr ⟨l :: q, hq, List.cons_ne_nil _ _, behind⟩
  · rintro (here | ⟨q, hq, -, way⟩)
    · exact ⟨_, here, List.cons_ne_nil _ _, List.cons_prefix_cons.2 ⟨rfl, List.nil_prefix⟩⟩
    · exact ⟨_, hq, List.cons_ne_nil _ _, List.cons_prefix_cons.2 ⟨rfl, way⟩⟩

theorem covers_singleton : Covers D [name] ↔ [name] ∈ D := by
  rw [covers_cons, or_iff_left not_covers_nil]

/-- The places under one. -/
def beneath (s : Path) : Set Path := {p | s <+: p ∧ p ≠ s}

/-- All that is under a place is covered along with the place. -/
theorem covers_insert_iff {s : Path} (nonempty : s ≠ []) (other : p ≠ s) :
    Covers (insert s D) p ↔ Covers (D ∪ beneath s) p := by
  constructor
  · rintro ⟨q, rfl | hq, hne, way⟩
    · exact ⟨p, .inr ⟨way, other⟩, fun h => nonempty (List.prefix_nil.1 (h ▸ way)), List.prefix_rfl⟩
    · exact ⟨q, .inl hq, hne, way⟩
  · rintro ⟨q, hq | ⟨under, -⟩, hne, way⟩
    · exact ⟨q, .inr hq, hne, way⟩
    · exact ⟨s, .inl rfl, nonempty, under.trans way⟩

end Json

open Json (Covers beneath)

/-! ## One leaf -/

namespace Setting.Leaf

/-- A configuration `c'` has the leaf as `c` has it, or as the default `d` has it if the leaf is in
`D` or in a section that is. -/
structure Completed (leaf : Leaf σ) (D : Set Path) (d c c' : σ) : Prop where
  outside : ¬ Covers D leaf.path → leaf.get c' = leaf.get c
  inside : Covers D leaf.path → leaf.get c' = leaf.get d

/-- Only what is covered tells two completed configurations apart. -/
theorem Completed.congr {leaf : Leaf σ} {D' : Set Path} {d c c₁ c₂ : σ}
    (h₁ : leaf.Completed D d c c₁) (h₂ : leaf.Completed D' d c c₂)
    (same : Covers D leaf.path ↔ Covers D' leaf.path) : leaf.get c₁ = leaf.get c₂ := by
  by_cases cut : Covers D leaf.path
  · exact (h₁.inside cut).trans (h₂.inside (same.1 cut)).symm
  · exact (h₁.outside cut).trans (h₂.outside (mt same.2 cut)).symm

theorem completed_ofField {read : Setting → Option α} {get : σ → α}
    {refuses : read (.table []) = none} {d c c' : σ}
    (h : get c' = orDefault D name (get d) (get c)) :
    (ofField name read get refuses).Completed D d c c' where
  outside out := h.trans (if_neg (mt Json.covers_singleton.2 out))
  inside cut := h.trans (if_pos (Json.covers_singleton.1 cut))

/-- A leaf of a section that is completed itself, or left out. -/
theorem completed_under {part : τ → σ} {d c c' : τ} {s : σ} {leaf : Leaf σ}
    (h : part c' = orDefault D name (part d) s)
    (inner : leaf.Completed (within name D) (part d) (part c) s) :
    (leaf.under name part).Completed D d c c' := by
  -- Where the section is in `D` itself, it does not matter what else of it is.
  by_cases gone : [name] ∈ D
  · have whole : part c' = part d := h.trans (if_pos gone)
    exact ⟨fun out => absurd (Json.covers_cons.2 (.inl gone)) out,
      fun _ => congrArg leaf.get whole⟩
  · have whole : part c' = s := h.trans (if_neg gone)
    have covers : Covers D (name :: leaf.path) ↔ Covers (within name D) leaf.path := by
      rw [Json.covers_cons, or_iff_right gone]
    constructor
    · exact fun out => (congrArg leaf.get whole).trans (inner.outside (mt covers.2 out))
    · exact fun cut => (congrArg leaf.get whole).trans (inner.inside (covers.1 cut))

end Setting.Leaf

/-! ## The sections of the job system -/

namespace QueueConfig

/-- The section as it is written. -/
def toJson (c : QueueConfig) : Json := .object [("capacity", ofWord c.capacity)]

/-- The section with the defaults of the fields in a set of places. -/
noncomputable def completed (D : Set Path) (c : QueueConfig) : QueueConfig where
  capacity := orDefault D "capacity" ({} : QueueConfig).capacity c.capacity

theorem completes : codec.Completes (d + 1) toJson completed :=
  Codec.completes_record (.cons Codec.completes_word64 .nil) (by decide) (fun _ => rfl)
    fun _ _ => rfl

theorem completed_leaves (D : Set Path) (c : QueueConfig) :
    ∀ leaf ∈ leaves, leaf.Completed D {} c (c.completed D) :=
  List.forall_mem_singleton.2 (Leaf.completed_ofField rfl)

end QueueConfig

namespace WorkerConfig

def toJson (c : WorkerConfig) : Json := .object [
  ("concurrency", ofWord c.concurrency),
  ("workload_latency_ms", ofWord c.workloadLatencyMs),
  ("failing_job_type", .string c.failingKind),
  ("shutdown_timeout_secs", ofWord c.shutdownTimeoutSecs)]

noncomputable def completed (D : Set Path) (c : WorkerConfig) : WorkerConfig :=
  let d : WorkerConfig := {}
  { concurrency := orDefault D "concurrency" d.concurrency c.concurrency
    workloadLatencyMs := orDefault D "workload_latency_ms" d.workloadLatencyMs c.workloadLatencyMs
    failingKind := orDefault D "failing_job_type" d.failingKind c.failingKind
    shutdownTimeoutSecs :=
      orDefault D "shutdown_timeout_secs" d.shutdownTimeoutSecs c.shutdownTimeoutSecs }

theorem completes : codec.Completes (d + 1) toJson completed := by
  rw [codec]
  exact Codec.completes_record
    (.cons Codec.completes_word64 <| .cons Codec.completes_word64 <|
      .cons Codec.completes_text <| .cons Codec.completes_word64 .nil)
    (by decide) (fun _ => rfl) fun _ _ => rfl

theorem completed_leaves (D : Set Path) (c : WorkerConfig) :
    ∀ leaf ∈ leaves, leaf.Completed D {} c (c.completed D) := by
  simp only [leaves, List.forall_mem_cons]
  exact ⟨Leaf.completed_ofField rfl, Leaf.completed_ofField rfl, Leaf.completed_ofField rfl,
    Leaf.completed_ofField rfl, List.forall_mem_nil _⟩

end WorkerConfig

namespace SweeperConfig

def toJson (c : SweeperConfig) : Json := .object [("interval_ms", ofWord c.intervalMs)]

noncomputable def completed (D : Set Path) (c : SweeperConfig) : SweeperConfig where
  intervalMs := orDefault D "interval_ms" ({} : SweeperConfig).intervalMs c.intervalMs

theorem completes : codec.Completes (d + 1) toJson completed :=
  Codec.completes_record (.cons Codec.completes_word64 .nil) (by decide) (fun _ => rfl)
    fun _ _ => rfl

theorem completed_leaves (D : Set Path) (c : SweeperConfig) :
    ∀ leaf ∈ leaves, leaf.Completed D {} c (c.completed D) :=
  List.forall_mem_singleton.2 (Leaf.completed_ofField rfl)

end SweeperConfig

namespace RetryConfig

def toJson (c : RetryConfig) : Json := .object [("max_retries", ofWord c.maxRetries.toUInt64)]

noncomputable def completed (D : Set Path) (c : RetryConfig) : RetryConfig where
  maxRetries := orDefault D "max_retries" ({} : RetryConfig).maxRetries c.maxRetries

theorem completes : codec.Completes (d + 1) toJson completed :=
  Codec.completes_record (.cons Codec.completes_word32 .nil) (by decide) (fun _ => rfl)
    fun _ _ => rfl

theorem completed_leaves (D : Set Path) (c : RetryConfig) :
    ∀ leaf ∈ leaves, leaf.Completed D {} c (c.completed D) :=
  List.forall_mem_singleton.2 (Leaf.completed_ofField rfl)

end RetryConfig

namespace JobsConfig

def toJson (c : JobsConfig) : Json := .object [
  ("queue", c.queue.toJson),
  ("worker", c.worker.toJson),
  ("sweeper", c.sweeper.toJson),
  ("retry", c.retry.toJson)]

noncomputable def completed (D : Set Path) (c : JobsConfig) : JobsConfig where
  queue := orDefault D "queue" {} (c.queue.completed (within "queue" D))
  worker := orDefault D "worker" {} (c.worker.completed (within "worker" D))
  sweeper := orDefault D "sweeper" {} (c.sweeper.completed (within "sweeper" D))
  retry := orDefault D "retry" {} (c.retry.completed (within "retry" D))

theorem completes : codec.Completes (d + 2) toJson completed :=
  Codec.completes_record
    (.cons QueueConfig.completes <| .cons WorkerConfig.completes <|
      .cons SweeperConfig.completes <| .cons RetryConfig.completes .nil)
    (by decide) (fun _ => rfl) fun _ _ => rfl

theorem completed_leaves (D : Set Path) (c : JobsConfig) :
    ∀ leaf ∈ leaves, leaf.Completed D {} c (c.completed D) := by
  simp only [leaves, List.forall_mem_append, List.forall_mem_map]
  exact ⟨fun leaf h => Leaf.completed_under rfl (c.queue.completed_leaves _ leaf h),
    fun leaf h => Leaf.completed_under rfl (c.worker.completed_leaves _ leaf h),
    fun leaf h => Leaf.completed_under rfl (c.sweeper.completed_leaves _ leaf h),
    fun leaf h => Leaf.completed_under rfl (c.retry.completed_leaves _ leaf h)⟩

end JobsConfig

/-! ## The sections of the application -/

namespace AppMetadata

def toJson (c : AppMetadata) : Json := .object [
  ("name", .string c.name),
  ("version", .string c.version),
  ("environment", .string c.environment)]

noncomputable def completed (D : Set Path) (c : AppMetadata) : AppMetadata :=
  let d : AppMetadata := {}
  { name := orDefault D "name" d.name c.name
    version := orDefault D "version" d.version c.version
    environment := orDefault D "environment" d.environment c.environment }

theorem completes : codec.Completes (d + 1) toJson completed := by
  rw [codec]
  exact Codec.completes_record
    (.cons Codec.completes_text <| .cons Codec.completes_text <| .cons Codec.completes_text .nil)
    (by decide) (fun _ => rfl) fun _ _ => rfl

theorem completed_leaves (D : Set Path) (c : AppMetadata) :
    ∀ leaf ∈ leaves, leaf.Completed D {} c (c.completed D) := by
  simp only [leaves, List.forall_mem_cons]
  exact ⟨Leaf.completed_ofField rfl, Leaf.completed_ofField rfl, Leaf.completed_ofField rfl,
    List.forall_mem_nil _⟩

end AppMetadata

namespace ServerConfig

def toJson (c : ServerConfig) : Json := .object [
  ("rest_host", .string c.host),
  ("rest_port", ofWord c.port.toUInt64),
  ("max_body_size", ofWord c.maxBodySize),
  ("cors_enabled", .bool c.corsEnabled),
  ("cors_origins", .array (c.corsOrigins.map .string))]

noncomputable def completed (D : Set Path) (c : ServerConfig) : ServerConfig :=
  let d : ServerConfig := {}
  { host := orDefault D "rest_host" d.host c.host
    port := orDefault D "rest_port" d.port c.port
    maxBodySize := orDefault D "max_body_size" d.maxBodySize c.maxBodySize
    corsEnabled := orDefault D "cors_enabled" d.corsEnabled c.corsEnabled
    corsOrigins := orDefault D "cors_origins" d.corsOrigins c.corsOrigins }

theorem completes : codec.Completes (d + 2) toJson completed := by
  rw [codec]
  exact Codec.completes_record
    (.cons Codec.completes_text <| .cons Codec.completes_word16 <| .cons Codec.completes_word64 <|
      .cons Codec.completes_bool <| .cons Codec.completes_texts .nil)
    (by decide) (fun _ => rfl) fun _ _ => rfl

theorem completed_leaves (D : Set Path) (c : ServerConfig) :
    ∀ leaf ∈ leaves, leaf.Completed D {} c (c.completed D) := by
  simp only [leaves, List.forall_mem_cons]
  exact ⟨Leaf.completed_ofField rfl, Leaf.completed_ofField rfl, Leaf.completed_ofField rfl,
    Leaf.completed_ofField rfl, Leaf.completed_ofField rfl, List.forall_mem_nil _⟩

end ServerConfig

theorem LogFormat.completes : codec.Completes d (fun f => .string f.name) fun _ f => f :=
  Codec.completes_names (fun f => by cases f <;> decide)
    fun a b => by cases a <;> cases b <;> decide

namespace ObservabilityConfig

def toJson (c : ObservabilityConfig) : Json := .object [
  ("log_level", .string c.logLevel),
  ("log_format", .string c.logFormat.name)]

noncomputable def completed (D : Set Path) (c : ObservabilityConfig) : ObservabilityConfig :=
  let d : ObservabilityConfig := {}
  { logLevel := orDefault D "log_level" d.logLevel c.logLevel
    logFormat := orDefault D "log_format" d.logFormat c.logFormat }

theorem completes : codec.Completes (d + 1) toJson completed := by
  rw [codec]
  exact Codec.completes_record
    (.cons Codec.completes_text <| .cons LogFormat.completes .nil)
    (by decide) (fun _ => rfl) fun _ _ => rfl

theorem completed_leaves (D : Set Path) (c : ObservabilityConfig) :
    ∀ leaf ∈ leaves, leaf.Completed D {} c (c.completed D) := by
  simp only [leaves, List.forall_mem_cons]
  exact ⟨Leaf.completed_ofField rfl, Leaf.completed_ofField rfl, List.forall_mem_nil _⟩

end ObservabilityConfig

/-! ## The whole configuration -/

namespace AppConfig

def toJson (c : AppConfig) : Json := .object [
  ("app", c.app.toJson),
  ("server", c.server.toJson),
  ("jobs", c.jobs.toJson),
  ("observability", c.observability.toJson)]

noncomputable def completed (D : Set Path) (c : AppConfig) : AppConfig where
  app := orDefault D "app" {} (c.app.completed (within "app" D))
  server := orDefault D "server" {} (c.server.completed (within "server" D))
  jobs := orDefault D "jobs" {} (c.jobs.completed (within "jobs" D))
  observability :=
    orDefault D "observability" {} (c.observability.completed (within "observability" D))

theorem completes : codec.Completes (d + 3) toJson completed :=
  Codec.completes_record
    (.cons AppMetadata.completes <| .cons ServerConfig.completes <|
      .cons JobsConfig.completes <| .cons ObservabilityConfig.completes .nil)
    (by decide) (fun _ => rfl) fun _ _ => rfl

theorem completed_leaves (D : Set Path) (c : AppConfig) :
    ∀ leaf ∈ leaves, leaf.Completed D {} c (c.completed D) := by
  simp only [leaves, List.forall_mem_append, List.forall_mem_map]
  exact ⟨fun leaf h => Leaf.completed_under rfl (c.app.completed_leaves _ leaf h),
    fun leaf h => Leaf.completed_under rfl (c.server.completed_leaves _ leaf h),
    fun leaf h => Leaf.completed_under rfl (c.jobs.completed_leaves _ leaf h),
    fun leaf h => Leaf.completed_under rfl (c.observability.completed_leaves _ leaf h)⟩

/-- A configuration is its leaves. -/
theorem eq_of_leaves {c c' : AppConfig} (h : ∀ leaf ∈ leaves, leaf.get c = leaf.get c') :
    c = c' := by
  obtain ⟨⟨_, _, _⟩, ⟨_, _, _, _, _⟩, ⟨⟨_⟩, ⟨_, _, _, _⟩, ⟨_⟩, ⟨_⟩⟩, ⟨_, _⟩⟩ := c
  obtain ⟨⟨_, _, _⟩, ⟨_, _, _, _, _⟩, ⟨⟨_⟩, ⟨_, _, _, _⟩, ⟨_⟩, ⟨_⟩⟩, ⟨_, _⟩⟩ := c'
  simpa [leaves, AppMetadata.leaves, ServerConfig.leaves, JobsConfig.leaves, QueueConfig.leaves,
    WorkerConfig.leaves, SweeperConfig.leaves, RetryConfig.leaves, ObservabilityConfig.leaves,
    Leaf.under, Leaf.ofField, and_assoc] using h

/-- The place of a section, which is on the way to a leaf. -/
def IsSection (s : Path) : Prop := s ≠ [] ∧ ∃ p ∈ leaves.map Leaf.path, s <+: p ∧ s ≠ p

/-- No leaf is on the way to another. -/
theorem path_ne_section {s : Path} (h : IsSection s) : ∀ leaf ∈ leaves, leaf.path ≠ s := by
  have apart : ∀ p ∈ leaves.map Leaf.path, ∀ q ∈ leaves.map Leaf.path, p <+: q → p = q := by decide
  rintro leaf hleaf rfl
  obtain ⟨-, p, hp, way, ne⟩ := h
  exact ne (apart _ (List.mem_map_of_mem hleaf) p hp way)

variable {c c' : AppConfig} {D' : Set Path} {doc : Json}

theorem completed_congr (same : ∀ leaf ∈ leaves, Covers D leaf.path ↔ Covers D' leaf.path) :
    c.completed D = c.completed D' :=
  eq_of_leaves fun leaf hleaf =>
    (c.completed_leaves D leaf hleaf).congr (c.completed_leaves D' leaf hleaf) (same leaf hleaf)

/-- The leaves say what a completed configuration is. -/
theorem eq_completed_iff :
    (∀ leaf ∈ leaves, leaf.Completed D {} c c') ↔ c' = c.completed D := by
  constructor
  · exact fun h => eq_of_leaves fun leaf hleaf =>
      (h leaf hleaf).congr (c.completed_leaves D leaf hleaf) .rfl
  · rintro rfl
    exact c.completed_leaves D

theorem completed_empty : c.completed ∅ = c :=
  eq_of_leaves fun leaf hleaf => (c.completed_leaves ∅ leaf hleaf).outside fun ⟨_, hq, _⟩ => hq

theorem decode_abridged (writable : doc.Writable) (part : Json.Abridged D c.toJson doc) :
    codec.decode? doc.render = some (c.completed D) :=
  (completes.takes writable part).decode?

theorem render_toJson : c.toJson.render = codec.encode c :=
  congrArg String.ofList ((completes (d := 0)).print c)

/-- **The defaults agree.** However a document comes to show no leaf, because the field is missing or
any section on the way to it, it is read as the default configuration: each field has by itself the
default that it has in the default of every section around it. -/
theorem defaults_agree (writable : doc.Writable) (part : Json.Abridged D c.toJson doc)
    (none : ∀ leaf ∈ leaves, Covers D leaf.path) : codec.decode? doc.render = some default := by
  have bare : c.completed D = default := eq_of_leaves fun leaf hleaf =>
    (c.completed_leaves D leaf hleaf).inside (none leaf hleaf)
  rw [decode_abridged writable part, bare]

/-- A section that is empty is like one that is not there. -/
theorem completed_beneath {s : Path} (h : IsSection s) :
    c.completed (insert s D) = c.completed (D ∪ beneath s) :=
  completed_congr fun leaf hleaf => Json.covers_insert_iff h.1 (path_ne_section h leaf hleaf)

/-- **A configuration that is given in part is completed by the defaults.** Take the tree of a
configuration `c`, cut out the fields in any set `D` of places, sections among them, and add
members of unknown names to its objects. The document is read as the one configuration that has the
leaves of `c`, but the default ones in `D`. In particular the text of `c` is read as `c`, and it
does not matter whether a section is gone or has none of its fields. -/
theorem part_is_completed (c : AppConfig) :
    c.toJson.render = codec.encode c ∧
    (∀ D, (c.toJson.without D).Writable ∧ Json.Abridged D c.toJson (c.toJson.without D)) ∧
    (∀ D doc, doc.Writable → Json.Abridged D c.toJson doc → ∃ c',
      codec.decode? doc.render = some c' ∧
      ∀ c'', (∀ leaf ∈ leaves, leaf.Completed D {} c c'') ↔ c'' = c') ∧
    codec.decode? (codec.encode c) = some c ∧
    (∀ s, IsSection s → ∀ D gone empty, gone.Writable → empty.Writable →
      Json.Abridged (insert s D) c.toJson gone → Json.Abridged (D ∪ beneath s) c.toJson empty →
      codec.decode? gone.render = codec.decode? empty.render) := by
  have tree : codec.Completes 3 toJson completed := completes
  have cut (D) : Json.Abridged D c.toJson (c.toJson.without D) :=
    (tree.distinct c).abridged_without D
  refine ⟨render_toJson, fun D => ⟨(tree.writable c).without D, cut D⟩, ?_, ?_, ?_⟩
  · exact fun D doc writable part => ⟨_, decode_abridged writable part, fun c'' => eq_completed_iff⟩
  · -- The text of `c` is the document that lacks nothing.
    have whole : Json.Abridged ∅ c.toJson c.toJson := by
      simpa only [Json.without_empty] using cut ∅
    rw [← render_toJson, decode_abridged (tree.writable c) whole, completed_empty]
  · intro s hs D gone empty hgone hempty cutGone cutEmpty
    rw [decode_abridged hgone cutGone, decode_abridged hempty cutEmpty, completed_beneath hs]

/-- Fields are gone on three levels, the others are out of order, and there are members of unknown
names. One of these is an object that has a field of a known name. -/
theorem part_is_completed_relay :
    let c : AppConfig :=
      { app := { name := "relay" }, server := { port := 9000 }
        jobs := { worker := { concurrency := 8, workloadLatencyMs := 250 }
                  sweeper := { intervalMs := 10 } }
        observability := { logFormat := .json } }
    let D : Set Path := {["server"], ["app", "version"], ["jobs", "worker", "concurrency"]}
    let doc (sweeper : List (String × Json)) : Json := .object [
      ("observability", c.observability.toJson),
      ("jobs", .object (sweeper ++ [
        ("worker", .object [
          ("shutdown_timeout_secs", ofWord 30),
          ("threads", .object [("concurrency", .string "many")]),
          ("failing_job_type", .string "always_fail"),
          ("workload_latency_ms", ofWord 250)]),
        ("queue", c.jobs.queue.toJson), ("retry", c.jobs.retry.toJson)])),
      ("comment", .array [.null, .bool false]),
      ("app", .object [("environment", .string "development"), ("name", .string "relay")])]
    let gone := doc []
    let empty := doc [("sweeper", .object [])]
    gone.Writable ∧ empty.Writable ∧ IsSection ["jobs", "sweeper"] ∧
    Json.Abridged (insert ["jobs", "sweeper"] D) c.toJson gone ∧
    Json.Abridged (D ∪ beneath ["jobs", "sweeper"]) c.toJson empty ∧
    codec.decode? gone.render = some
      { app := { name := "relay" }, jobs := { worker := { workloadLatencyMs := 250 } }
        observability := { logFormat := .json } } ∧
    codec.decode? gone.render = codec.decode? empty.render := by
  intro c D doc gone empty
  have writable (sweeper : List (String × Json)) (h : ∀ f ∈ sweeper, f.2.Writable) :
      (doc sweeper).Writable := by
    simp [doc, c, QueueConfig.toJson, RetryConfig.toJson, ObservabilityConfig.toJson, ofWord,
      Json.writable_object_iff, Json.Writable.string, Json.Writable.integer, Json.Writable.array,
      Json.Writable.null, Json.Writable.bool, or_imp, forall_and]
    exact fun a b hf => h (a, b) hf
  have hgone : gone.Writable := writable _ (List.forall_mem_nil _)
  have hempty : empty.Writable :=
    writable _ (List.forall_mem_singleton.2 (.object (List.forall_mem_nil _)))
  have hs : IsSection ["jobs", "sweeper"] := ⟨by decide, by decide⟩
  have cuts : Json.Abridged (insert ["jobs", "sweeper"] D) c.toJson gone ∧
      Json.Abridged (D ∪ beneath ["jobs", "sweeper"]) c.toJson empty := by
    simp [gone, empty, doc, c, D, toJson, AppMetadata.toJson, ServerConfig.toJson,
      JobsConfig.toJson, WorkerConfig.toJson, QueueConfig.toJson, SweeperConfig.toJson,
      RetryConfig.toJson, ObservabilityConfig.toJson, ofWord, Json.Abridged, Json.AbridgedFields,
      Json.valuesOf_cons, Json.valuesOf_nil, within, beneath, WorkerConfig.defaultFailingKind,
      WorkerConfig.defaultShutdownTimeoutSecs]
  obtain ⟨cutGone, cutEmpty⟩ := cuts
  obtain ⟨-, -, part, -, sections⟩ := part_is_completed c
  obtain ⟨c', read, only⟩ := part _ gone hgone cutGone
  refine ⟨hgone, hempty, hs, cutGone, cutEmpty, ?_,
    sections _ hs D gone empty hgone hempty cutGone cutEmpty⟩
  rw [read, ← (only _).1 (eq_completed_iff.2 rfl)]
  simp [c, D, completed, AppMetadata.completed, JobsConfig.completed, WorkerConfig.completed,
    QueueConfig.completed, RetryConfig.completed, ObservabilityConfig.completed, orDefault, within]

end AppConfig

end JobPipeline
