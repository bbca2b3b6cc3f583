import JobPipeline.Proofs.Api.Payloads
import JobPipeline.Proofs.Time.Rfc3339

/-!
# Answers and their readers

What the API answers about jobs can be read back by the codecs that wrote it, as long as the
payloads are not nested too deep. Acceptance and reading share one limit on nesting, and the frame
of an answer takes some of it: two levels around a single job, three around a list. A submission may
have 126 levels. So a job that was accepted may have an answer that no reader of the API takes, and
it makes the list of all jobs unreadable with it (`answers_read_back`,
`deepRequest_answer_is_refused`).
-/

namespace JobPipeline

open Json (Codec)

namespace Payload

/-- Whatever the bytes are, the value they are shown as has a text. -/
theorem canonical_toJson (bytes : List UInt8) : (toJson bytes).Canonical := by
  rw [toJson]
  split
  · exact .null
  · split
    · rename_i v hread
      rw [Codec.decodeBytes?, Codec.decodeSymbols?] at hread
      split at hread
      · rename_i hvalue
        split at hread
        · cases hread
          exact (Json.canonical_of_value hvalue).1
        · cases hread
      · cases hread
    · exact .string _

end Payload

namespace Api

variable {α : Type} {d : Nat}

theorem rereads_instant {t : Instant} (h : t.Nameable) : instantCodec.Rereads d t (some t) := by
  refine ⟨Codec.opens_printString _, fun bound _ => .of_ok fun rest _ => ?_⟩
  simp only [instantCodec, Codec.read_text, Rfc3339.parse?_print h]

theorem rereads_status (s : Status) : Status.codec.Rereads d s (some s) :=
  Codec.rereads_names (Status.mem_all s) fun _ _ same => Status.name_injective same

/-- The view that the text of a view is read as. -/
def JobView.reread (v : JobView) : JobView := { v with payload := v.payload.reread }

theorem JobView.rereads_codec {v : JobView} (writable : v.payload.Writable)
    (dated : v.createdAt.Nameable) :
    JobView.codec.Rereads (d + 1) v (if v.payload.depth ≤ d then some v.reread else none) := by
  have whole : JobView.codec.Rereads (d + 1) v _ := Codec.rereads_record
    (.shown rfl (Codec.rereads_text v.id) <|
      .shown rfl (Codec.rereads_text v.kind) <|
      .shown rfl (rereads_status v.status) <|
      .shown rfl (Codec.rereads_free writable) <|
      .shown rfl (Codec.rereads_word32 v.attempts) <|
      .shown rfl (Codec.rereads_word32 v.maxRetries) <|
      .shown rfl (Codec.rereads_optional_text v.lastError) <|
      .shown rfl (rereads_instant dated) .nil) (by decide)
  split_ifs at whole ⊢ <;> exact whole

/-- The envelope of data is read if the data are, one level deeper. -/
theorem Envelope.rereads_codec {c : Codec α} {a : α} {o : Option α} (h : c.Rereads d a o)
    (noNull : ∀ cs, c.print a ≠ 'n' :: cs) :
    (Envelope.codec c).Rereads (d + 1) (.ofData a) (o.map .ofData) := by
  have whole : (Envelope.codec c).Rereads (d + 1) (.ofData a) _ := Codec.rereads_record
    (.shown rfl (Codec.rereads_bool true) <|
      .shown rfl (h.optional noNull) <|
      .hidden rfl rfl .nil) (show ["success", "data", "error"].Nodup by decide)
  cases o <;> exact whole

/-- One job in its envelope. -/
theorem rereads_answer {v : JobView} (writable : v.payload.Writable)
    (dated : v.createdAt.Nameable) :
    (Envelope.codec JobView.codec).decode? ((Envelope.codec JobView.codec).encode (.ofData v)) =
      if v.payload.depth ≤ 125 then some (.ofData v.reread) else none := by
  have whole := Envelope.rereads_codec (JobView.rereads_codec (d := 125) writable dated) nofun
  rw [Codec.Rereads.decode? whole]
  split_ifs <;> rfl

/-- A list of jobs in its envelope. -/
theorem rereads_answers {views : List JobView}
    (h : ∀ v ∈ views, v.payload.Writable ∧ v.createdAt.Nameable) :
    (Envelope.codec (.list JobView.codec)).decode?
        ((Envelope.codec (.list JobView.codec)).encode (.ofData views)) =
      if ∀ v ∈ views, v.payload.depth ≤ 124 then some (.ofData (views.map JobView.reread))
        else none := by
  have all := Codec.rereads_list fun v hv => JobView.rereads_codec (d := 124) (h v hv).1 (h v hv).2
  have whole := Envelope.rereads_codec all nofun
  rw [Codec.Rereads.decode? whole]
  split_ifs <;> rfl

section
variable {config : ServerConfig} {s : Service} {id : JobId} {now : Instant} {r : Request}
  {x : Submission}

theorem toJson_of_submits (submits : Submits config s r x) (exact : x.payload.Exact) :
    Payload.toJson x.bytes = x.payload := by
  obtain ⟨canonical, shallow⟩ := Submission.payload_of_read submits.read
  rw [← ofJson_payload, Payload.toJson_ofJson canonical.writable (shallow.trans (by decide)),
    canonical.reread_eq exact]

/-- A view of the submitted payload is read as itself. -/
theorem reread_of_submits (submits : Submits config s r x) (exact : x.payload.Exact) {v : JobView}
    (h : v.payload = x.payload) : v.payload.Writable ∧ v.reread = v := by
  obtain ⟨canonical, -⟩ := Submission.payload_of_read submits.read
  rw [JobView.reread, h, canonical.reread_eq exact, ← h]
  exact ⟨h ▸ canonical.writable, rfl⟩

/-- The body of a 201 has room for 125 levels. -/
theorem created_reads_back (submits : Submits config s r x) (exact : x.payload.Exact)
    (fresh : s.pipeline.store.get? id = none) (dated : now.Nameable) :
    (Envelope.codec JobView.codec).decode? (respond config s id now r).1.body =
      if x.payload.depth ≤ 125 then some (.ofData (.ofJob (x.job s id now))) else none := by
  have shown : (JobView.ofJob (x.job s id now)).payload = x.payload :=
    toJson_of_submits submits exact
  obtain ⟨writable, still⟩ := reread_of_submits submits exact shown
  obtain ⟨-, -, body⟩ := respond_of_submits submits now fresh
  rw [body, rereads_answer writable dated, still, shown]

/-- **Which answers can be read back.** Take a job that a request has submitted with a payload
without real numbers. The body of the 201 is read as the job that it shows if the payload has at
most 125 levels, and is refused if it has more. The same holds of a look at the job in any later
state. The list of all jobs is read if each of them shows a payload of at most 124 levels, and is
refused if one does not. Whatever is read shows the payload that was submitted. -/
theorem answers_read_back (submits : Submits config s r x) (exact : x.payload.Exact)
    (fresh : s.pipeline.store.get? id = none) (dated : now.Nameable) :
    (JobView.ofJob (x.job s id now)).payload = x.payload ∧
    (Envelope.codec JobView.codec).decode? (respond config s id now r).1.body =
      (if x.payload.depth ≤ 125 then some (.ofData (.ofJob (x.job s id now))) else none) ∧
    ∀ later : Service, Relation.ReflTransGen Store.Serves
        (respond config s id now r).2.pipeline.store later.pipeline.store →
      (∀ job ∈ later.list, job.createdAt.Nameable) →
      ∀ config' id' now' q, q.method = "GET" →
        (∀ segment, Route.ofPath? q.path = some (.job segment) →
          Percent.decode? segment = some id.text →
          ∃ job, later.get id = .ok job ∧ (JobView.ofJob job).payload = x.payload ∧
            (Envelope.codec JobView.codec).decode? (respond config' later id' now' q).1.body =
              if x.payload.depth ≤ 125 then some (.ofData (.ofJob job)) else none) ∧
        (Route.ofPath? q.path = some .jobs →
          let views := later.list.map JobView.ofJob
          (Envelope.codec (.list JobView.codec)).decode? (respond config' later id' now' q).1.body =
            (if ∀ v ∈ views, v.payload.depth ≤ 124 then some (.ofData (views.map JobView.reread))
              else none) ∧
          (∃ v ∈ views.map JobView.reread, v.id = id.text) ∧
            ∀ v ∈ views.map JobView.reread, v.id = id.text → v.payload = x.payload) := by
  have same := toJson_of_submits submits exact
  refine ⟨same, created_reads_back submits exact fresh dated,
    fun later life dates config' id' now' q method => ?_⟩
  have carries : later.pipeline.store.Carries id x.bytes :=
    ((respond_of_submits submits now fresh).1.carries fresh).serves life
  constructor
  · intro segment path names
    obtain ⟨job, hget, bytes⟩ := carries.get?
    have shown : (JobView.ofJob job).payload = x.payload := by
      rw [← same, ← bytes]
      rfl
    obtain ⟨writable, still⟩ := reread_of_submits submits exact shown
    obtain ⟨e, he, hjob⟩ := Store.mem_of_get? hget
    have dated' := dates job (Store.mem_list_iff.2 ⟨e, he, hjob⟩)
    refine ⟨job, by rw [Service.get, hget], shown, ?_⟩
    have answer : (get later (.job segment)).body = _ :=
      congrArg Response.body (getJob_eq names hget)
    rw [(respond_of_get config' later id' now' method path).2, answer]
    refine (rereads_answer writable dated').trans ?_
    rw [still, shown]
  · intro path views
    obtain ⟨⟨view, listed, hid⟩, shown⟩ := shownAmong_list carries
    refine ⟨?_, ⟨_, List.mem_map_of_mem listed, hid⟩, List.forall_mem_map.2 fun view mem hid => ?_⟩
    · rw [(respond_of_get config' later id' now' method path).2]
      refine rereads_answers (List.forall_mem_map.2 fun job listed => ⟨?_, dates job listed⟩)
      exact (Payload.canonical_toJson job.payload).writable
    · have same' : view.payload = x.payload := (shown view mem hid).trans same
      rw [(reread_of_submits submits exact same').2, same']

end

/-- The order is read back from the 201, and from a look at it. -/
theorem orderRequest_reads_back :
    let s : Service := .ofConfig {} (.simulated 0 "always_fail")
    let job : Job := (⟨"order", orderPayload, none⟩ : Submission).job s ⟨"a"⟩ ⟨0, 0⟩
    let made := respond {} s ⟨"a"⟩ ⟨0, 0⟩ orderRequest
    let look := respond {} made.2 ⟨"b"⟩ ⟨9, 0⟩ ⟨"GET", "/api/v1/jobs/a", [], []⟩
    (Envelope.codec JobView.codec).decode? made.1.body = some (.ofData (.ofJob job)) ∧
      (Envelope.codec JobView.codec).decode? look.1.body = some (.ofData (.ofJob job)) := by
  intro s job made look
  have fresh : s.pipeline.store.get? ⟨"a"⟩ = none := rfl
  have epoch : Instant.Nameable ⟨0, 0⟩ := ⟨by decide, .inl (by decide)⟩
  have gains := (respond_of_submits submits_orderRequest ⟨0, 0⟩ fresh).1
  obtain ⟨-, created, later⟩ :=
    answers_read_back submits_orderRequest exact_orderPayload fresh epoch
  have dates : ∀ job ∈ made.2.list, job.createdAt.Nameable := by
    intro other listed
    obtain ⟨e, he, rfl⟩ := Store.mem_list_iff.1 listed
    rw [gains.stored] at he
    rw [List.mem_singleton.1 he]
    exact epoch
  obtain ⟨found, hget, -, seen⟩ := (later made.2 .refl dates {} ⟨"b"⟩ ⟨9, 0⟩
    ⟨"GET", "/api/v1/jobs/a", [], []⟩ rfl).1 "a" (by decide +kernel) (by decide +kernel)
  obtain rfl : job = found := Except.ok.inj (gains.found.symm.trans hget)
  exact ⟨created, seen⟩

/-- So many arrays within each other. -/
def nested : Nat → Json
  | 0 => .null
  | n + 1 => .array [nested n]

theorem exact_nested (n : Nat) : (nested n).Exact := by
  induction n with
  | zero => exact .null
  | succ n ih => exact .array (List.forall_mem_singleton.2 ih)

theorem canonical_nested (n : Nat) : (nested n).Canonical := by
  induction n with
  | zero => exact .null
  | succ n ih => exact .array (List.forall_mem_singleton.2 ih)

theorem depth_nested (n : Nat) : (nested n).depth = n := by
  induction n with
  | zero => rfl
  | succ n ih => simp [nested, Json.depth, Json.depthItems, ih]

/-- A request whose payload is nested as deep as a payload may be. -/
def deepRequest : Request where
  method := "POST"
  target := "/api/v1/jobs"
  headers := [("content-type", "application/json")]
  body := Utf8.encode (Submission.codec.encode ⟨"deep", nested 126, none⟩)

theorem submits_deepRequest :
    Submits {} (.ofConfig {} (.simulated 0 "always_fail")) deepRequest
      ⟨"deep", nested 126, none⟩ := by
  have read := Submission.read_encode ⟨"deep", nested 126, none⟩ (exact_nested 126).writable
    (depth_nested 126).le
  rw [(canonical_nested 126).reread_eq (exact_nested 126)] at read
  refine ⟨rfl, by decide +kernel, by decide +kernel, ?_, read, by decide +kernel, rfl⟩
  rw [deepRequest, Utf8.encode_eq, Codec.encode, String.toList_ofList]
  decide +kernel

/-- **An answer that cannot be read back.** The request is accepted, its payload has no real
numbers, and the reader of answers refuses the body of the 201. -/
theorem deepRequest_answer_is_refused :
    let s : Service := .ofConfig {} (.simulated 0 "always_fail")
    Submits {} s deepRequest ⟨"deep", nested 126, none⟩ ∧ (nested 126).Exact ∧
      (respond {} s ⟨"a"⟩ ⟨0, 0⟩ deepRequest).1.status = 201 ∧
      (Envelope.codec JobView.codec).decode? (respond {} s ⟨"a"⟩ ⟨0, 0⟩ deepRequest).1.body =
        none := by
  intro s
  have fresh : s.pipeline.store.get? ⟨"a"⟩ = none := rfl
  have submits : Submits {} s deepRequest ⟨"deep", nested 126, none⟩ := submits_deepRequest
  have epoch : Instant.Nameable ⟨0, 0⟩ := ⟨by decide, .inl (by decide)⟩
  have deep : ¬ (nested 126).depth ≤ 125 := by rw [depth_nested]; decide
  have refused := created_reads_back submits (exact_nested 126) fresh epoch
  exact ⟨submits, exact_nested 126, (respond_of_submits submits ⟨0, 0⟩ fresh).2.1,
    refused.trans (if_neg deep)⟩

end Api
end JobPipeline
