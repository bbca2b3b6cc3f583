import JobPipeline.Proofs.Api.Answers

/-!
# What is shown can be read

Everything the API shows is written and read by one codec, so it should come back as it was. That is
checked type by type here: each field is read as itself (`Codec.Rereads`), under the name that it is
written with. Fields that are not written are filled in, and the counters among the fields of a
`MetricsView` are read although they are no record of their own.

The limits are those of the readers. A payload is free of real numbers and leaves room for the level
of the job around it, and a timestamp has a year of four digits (`Api.JobView.Readable`).
-/

namespace JobPipeline

open Json (Codec)

/-! ## The years of four digits -/

theorem Calendar.daysFrom_bounds {date : Date} (valid : date.valid = true)
    (year : 0 ≤ date.year ∧ date.year ≤ 9999) :
    -800000 ≤ daysFrom date ∧ daysFrom date ≤ 3000000 := by
  obtain ⟨y, month, day⟩ := date
  have short := daysInMonth_le y month
  simp only [Date.valid, Bool.and_eq_true, decide_eq_true_eq] at valid
  simp only [daysFrom] at year ⊢
  split_ifs <;> omega

theorem Instant.nameable_of_year {t : Instant}
    (year : 0 ≤ (Calendar.civil (t.seconds / 86400)).year ∧
      (Calendar.civil (t.seconds / 86400)).year ≤ 9999)
    (nanos : t.nanos < 1000000000) : t.Nameable := by
  have bounds := Calendar.daysFrom_bounds (Calendar.valid_civil (t.seconds / 86400)) year
  rw [Calendar.daysFrom_civil] at bounds
  have first : Calendar.daysFrom ⟨-262143, 1, 1⟩ = -96465292 := by decide
  have last : Calendar.daysFrom ⟨262143, 1, 1⟩ = 95026237 := by decide
  refine ⟨?_, .inl nanos⟩
  rw [Rfc3339.inRange, first, last, Bool.and_eq_true, decide_eq_true_eq, decide_eq_true_eq]
  omega

/-! ## Records of figures -/

section
variable {d : Nat}

theorem Ledger.rereads_codec (l : Ledger) : Ledger.codec.Rereads (d + 1) l (some l) := by
  have whole : Ledger.codec.Rereads (d + 1) l _ := Codec.rereads_record
    (.shown rfl (Codec.rereads_word64 l.created) <|
      .shown rfl (Codec.rereads_word64 l.completed) <|
      .shown rfl (Codec.rereads_word64 l.failed) <|
      .shown rfl (Codec.rereads_word64 l.retried) <|
      .shown rfl (Codec.rereads_word64 l.inProgress) .nil) (by decide)
  exact whole

theorem StatusCounts.rereads_codec (c : StatusCounts) :
    StatusCounts.codec.Rereads (d + 1) c (some c) := by
  have whole : StatusCounts.codec.Rereads (d + 1) c _ := Codec.rereads_record
    (.shown rfl (Codec.rereads_word64 c.pending) <|
      .shown rfl (Codec.rereads_word64 c.processing) <|
      .shown rfl (Codec.rereads_word64 c.completed) <|
      .shown rfl (Codec.rereads_word64 c.failed) .nil) (by decide)
  exact whole

theorem QueueStats.rereads_codec (q : QueueStats) :
    QueueStats.codec.Rereads (d + 1) q (some q) := by
  have whole : QueueStats.codec.Rereads (d + 1) q _ := Codec.rereads_record
    (.shown rfl (Codec.rereads_word64 q.capacity) <|
      .shown rfl (Codec.rereads_word64 q.buffered) <|
      .shown rfl (Codec.rereads_bool q.isOpen) .nil) (by decide)
  exact whole

namespace Api

theorem ErrorBody.rereads_codec (e : ErrorBody) : ErrorBody.codec.Rereads (d + 1) e (some e) := by
  have whole : ErrorBody.codec.Rereads (d + 1) e _ := Codec.rereads_record
    (.shown rfl (Codec.rereads_text e.code) <|
      .shown rfl (Codec.rereads_text e.message) .nil) (by decide)
  exact whole

/-- Only members of other names are read in another way than those of a record. -/
theorem MetricsView.rereads_codec (m : MetricsView) :
    MetricsView.codec.Rereads (d + 2) m (some m) := by
  refine ⟨⟨'{', _, rfl, by decide⟩, fun bound enough => ?_⟩
  have fields : MetricsView.fields.Rereads (d + 1) m.values _ :=
    .shown rfl (Codec.rereads_word64 m.counters.created) <|
      .shown rfl (Codec.rereads_word64 m.counters.completed) <|
      .shown rfl (Codec.rereads_word64 m.counters.failed) <|
      .shown rfl (Codec.rereads_word64 m.counters.retried) <|
      .shown rfl (Codec.rereads_word64 m.counters.inProgress) <|
      .shown rfl m.jobsByStatus.rereads_codec <|
      .shown rfl m.queue.rereads_codec .nil
  have agrees : ∀ key ∈ MetricsView.fields.names,
      MetricsView.member bound (d + 1) key = MetricsView.fields.member bound (d + 1) key := by
    intro key known
    funext slots input
    exact if_pos known
  have object := fields.object (by decide) enough agrees MetricsView.ofValues
  refine object.congr fun rest => ?_
  simp only [MetricsView.codec, Json.printObject, Json.printed_cons, List.cons_append,
    Json.skipSpace_char (show Json.isSpace '{' = false by decide)]
  cases Json.members Json.stringBody (member bound (d + 1)) bound true MetricsView.fields.none
    (Json.printed (Json.joined ',' (MetricsView.fields.print m.values) ++ ['}']) ++ rest) with
  | error f => rfl
  | ok r => cases hslots : MetricsView.fields.complete r.1 <;> simp [hslots]

/-! ## Errors -/

/-- The envelope of an error has no data, so it does not matter which data it could have. -/
theorem Envelope.rereads_error {α : Type} (data : Codec α) (e : ApiError) :
    (Envelope.codec data).Rereads (d + 2) (.ofError e) (some (.ofError e)) := by
  have whole : (Envelope.codec data).Rereads (d + 2) (.ofError e) _ := Codec.rereads_record
    (.shown rfl (Codec.rereads_bool false) <|
      .hidden rfl rfl <|
      .shown rfl ((ErrorBody.rereads_codec ⟨e.code, e.message⟩).optional nofun) .nil)
    (show ["success", "data", "error"].Nodup by decide)
  exact whole

/-- A view of a job that is within the limits of its reader. -/
structure JobView.Readable (v : JobView) : Prop where
  canonical : v.payload.Canonical
  exact : v.payload.Exact
  shallow : v.payload.depth ≤ 126
  year : 0 ≤ (Calendar.civil (v.createdAt.seconds / 86400)).year ∧
    (Calendar.civil (v.createdAt.seconds / 86400)).year ≤ 9999
  nanos : v.createdAt.nanos < 1000000000

theorem JobView.Readable.rereads {v : JobView} (h : v.Readable) :
    JobView.codec.Rereads 127 v (some v) := by
  have whole := JobView.rereads_codec (d := 126) h.canonical.writable
    (Instant.nameable_of_year h.year h.nanos)
  rwa [if_pos h.shallow, JobView.reread, h.canonical.reread_eq h.exact] at whole

end Api
end

namespace Api

/-- **What is shown can be read.** The counters, the figures of store and queue, the metrics, the
bodies of errors and the jobs are read from their texts as they were. The body of the answer to any
failed request is read as an envelope with the code and the wording of the error and nothing else,
whatever data the reader would take. -/
theorem views_come_back :
    (∀ l : Ledger, Ledger.codec.decode? (Ledger.codec.encode l) = some l) ∧
    (∀ c : StatusCounts, StatusCounts.codec.decode? (StatusCounts.codec.encode c) = some c) ∧
    (∀ q : QueueStats, QueueStats.codec.decode? (QueueStats.codec.encode q) = some q) ∧
    (∀ m : MetricsView, MetricsView.codec.decode? (MetricsView.codec.encode m) = some m) ∧
    (∀ e : ErrorBody, ErrorBody.codec.decode? (ErrorBody.codec.encode e) = some e) ∧
    (∀ v : JobView, v.Readable → JobView.codec.decode? (JobView.codec.encode v) = some v) ∧
    ∀ (α : Type) (data : Codec α) (e : ApiError),
      (Envelope.codec data).decode? (answerError e).body =
        some ⟨false, none, some ⟨e.code, e.message⟩⟩ := by
  refine ⟨fun l => l.rereads_codec.decode?, fun c => c.rereads_codec.decode?,
    fun q => q.rereads_codec.decode?, fun m => m.rereads_codec.decode?,
    fun e => e.rereads_codec.decode?, fun v h => h.rereads.decode?, fun α data e => ?_⟩
  have body : (answerError e).body = (Envelope.codec data).encode (.ofError e) := rfl
  rw [body]
  exact (Envelope.rereads_error data e).decode?

/-- A job with a payload that is nested as deep as its reader allows, created in the last moment of
the year 9999, with an id that needs escapes. -/
def deepView : JobView where
  id := "a\"b\\c\n\u0001"
  kind := "smörgås 🥪"
  status := .failed
  payload := nested 126
  attempts := 4294967295
  maxRetries := 0
  lastError := some ""
  createdAt := ⟨253402300799, 999999999⟩

/-- The job is read back, and so is the error of looking for one with such an id. -/
theorem deepView_comes_back :
    deepView.Readable ∧
      JobView.codec.decode? (JobView.codec.encode deepView) = some deepView ∧
      (Envelope.codec JobView.codec).decode? (answerError (.job (.notFound ⟨deepView.id⟩))).body =
        some ⟨false, none, some ⟨"NOT_FOUND", "Job not found: a\"b\\c\n\u0001"⟩⟩ := by
  have readable : deepView.Readable :=
    ⟨canonical_nested 126, exact_nested 126, (depth_nested 126).le, by decide, by decide⟩
  obtain ⟨-, -, -, -, -, views, errors⟩ := views_come_back
  exact ⟨readable, views deepView readable, errors JobView JobView.codec _⟩

end Api
end JobPipeline
