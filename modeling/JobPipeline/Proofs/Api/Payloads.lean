import JobPipeline.Proofs.Api.Requests
import JobPipeline.Proofs.Json.Records
import JobPipeline.Proofs.Store.Budget

/-!
# Payloads come back as they were submitted

A payload is read from a body, kept as the bytes of its text, and read again for every answer. The
value that a body can carry is canonical and nested at most 126 levels deep (`payload_of_read`); the
reader of payloads allows one level more, so the fallback to a string is never taken
(`toJson_ofJson`). Nothing that is done to a store touches the payload of a record
(`Store.Carries.serves`).
-/

namespace JobPipeline

open Json (Codec)

/-! ## Payloads as bytes -/

namespace Payload

variable {v w : Json}

theorem encode_ne_nil {s : String} (h : s.toList ≠ []) : Utf8.encode s ≠ [] := by
  rw [Utf8.encode_eq]
  intro none
  obtain ⟨c, cs, hs⟩ := List.exists_cons_of_ne_nil h
  rw [hs, List.flatMap_cons, List.append_eq_nil_iff] at none
  have := String.length_utf8EncodeChar c
  rw [none.1] at this
  exact absurd this.symm (Char.utf8Size_pos c).ne'

/-- **Nothing but `null` is kept as no bytes.** -/
theorem ofJson_eq_nil_iff (writable : v.Writable) : ofJson v = [] ↔ v = .null := by
  constructor
  · intro h
    obtain ⟨c, cs, text, -⟩ := writable.opens_print
    rw [ofJson] at h
    split at h
    · rename_i isNull
      cases v <;> first | rfl | cases isNull
    · refine absurd h (encode_ne_nil ?_)
      rw [Json.render, String.toList_ofList, text]
      exact List.cons_ne_nil c cs
  · rintro rfl
    rfl

/-- What is kept is shown as the value that its text is read as. -/
theorem toJson_ofJson (writable : v.Writable) (shallow : v.depth ≤ Json.maxDepth) :
    toJson (ofJson v) = v.reread := by
  by_cases null : v = .null
  · rw [null]
    rfl
  · have bytes : ofJson v ≠ [] := fun h => null ((ofJson_eq_nil_iff writable).1 h)
    have text : ofJson v = Utf8.encode (Codec.free.encode v) := by
      cases v <;> first | exact absurd rfl null | rfl
    have read := (Json.Codec.rereads_free (d := Json.maxDepth) writable).decodeBytes?
    rw [if_pos shallow] at read
    rw [toJson, if_neg (by simpa using bytes), text, read]

end Payload

/-! ## Payloads in a store -/

namespace Store

/-- There is a record of the id, and whatever record of it there is has this payload. -/
structure Carries (s : Store) (id : JobId) (payload : List UInt8) : Prop where
  present : ∃ e ∈ s.entries, e.job.id = id
  same : ∀ e ∈ s.entries, e.job.id = id → e.job.payload = payload

theorem mem_list_iff {s : Store} {job : Job} : job ∈ s.list ↔ ∃ e ∈ s.entries, e.job = job := by
  simp [list, listWhere]

namespace Carries

variable {s s' : Store} {id : JobId} {payload : List UInt8}

theorem get? (h : s.Carries id payload) : ∃ job, s.get? id = some job ∧ job.payload = payload := by
  obtain ⟨e, he, hid⟩ := h.present
  cases hget : s.get? id with
  | none => exact absurd (List.mem_map.2 ⟨e, he, hid⟩) (get?_eq_none_iff.1 hget)
  | some job =>
    obtain ⟨e', he', rfl⟩ := mem_of_get? hget
    exact ⟨e'.job, rfl, h.same e' he' (id_of_get? hget)⟩

/-- Rewriting the records, the payload of the id untouched. -/
theorem map (h : s.Carries id payload) {g : Entry → Entry}
    (ids : ∀ e, (g e).job.id = e.job.id)
    (kept : ∀ e ∈ s.entries, e.job.id = id → (g e).job.payload = payload) :
    ({ s with entries := s.entries.map g } : Store).Carries id payload := by
  obtain ⟨e, he, hid⟩ := h.present
  refine ⟨⟨g e, List.mem_map_of_mem he, (ids e).trans hid⟩, List.forall_mem_map.2 ?_⟩
  exact fun e he hid => kept e he ((ids e).symm.trans hid)

theorem evolves (h : s.Carries id payload) (step : s.Evolves s') : s'.Carries id payload := by
  cases step with
  | rest => exact h
  | @change old new _ found change =>
    refine h.map (fun e => ?_) fun e he hid => ?_
    · by_cases same : e.job.id = old.id <;> simp [same, change.id_eq]
    · by_cases same : e.job.id = old.id
      · -- The record that is written is one of the id, so it has the payload of the id.
        obtain ⟨e', he', rfl⟩ := mem_of_get? found
        have kept : new.payload = e'.job.payload := by
          cases change with
          | _ => rfl
        rw [if_pos same]
        exact kept.trans (h.same e' he' (same.symm.trans hid))
      · rw [if_neg same]
        exact h.same e he hid
  | @create job _ _ fresh wrote =>
    rw [create_of_fresh fresh, Except.ok.injEq] at wrote
    subst wrote
    obtain ⟨e, he, hid⟩ := h.present
    refine ⟨⟨e, List.mem_append_left _ he, hid⟩, fun e' he' hid' => ?_⟩
    rcases List.mem_append.1 he' with he' | he'
    · exact h.same e' he' hid'
    · obtain rfl := List.mem_singleton.1 he'
      exact absurd (List.mem_map.2 ⟨e, he, hid.trans hid'.symm⟩) (get?_eq_none_iff.1 fresh)
  | sweep =>
    refine h.map (fun e => Job.id_swept e.job) fun e he hid => ?_
    have kept : e.job.swept.payload = e.job.payload := by unfold Job.swept; split <;> rfl
    exact kept.trans (h.same e he hid)

/-- **A payload stays as long as its record.** -/
theorem serves (h : s.Carries id payload) (life : Relation.ReflTransGen Serves s s') :
    s'.Carries id payload := by
  induction life with
  | refl => exact h
  | tail _ step ih => exact ih.evolves step.evolves

end Carries
end Store

theorem Service.Gains.carries {s s' : Service} {job : Job} (gains : s.Gains job s')
    (fresh : s.pipeline.store.get? job.id = none) :
    s'.pipeline.store.Carries job.id job.payload := by
  rw [gains.stored]
  refine ⟨⟨_, List.mem_append_right _ List.mem_cons_self, rfl⟩, fun e he hid => ?_⟩
  rcases List.mem_append.1 he with he | he
  · exact absurd (List.mem_map.2 ⟨e, he, hid⟩) (Store.get?_eq_none_iff.1 fresh)
  · obtain rfl := List.mem_singleton.1 he
    rfl

/-! ## Submissions -/

namespace Api

namespace Submission

/-- A value that some body has for a payload. -/
def Admits (v : Json) : Prop := ∃ body x, Submission.read body = .ok x ∧ x.payload = v

theorem rereads_codec (x : Submission) (writable : x.payload.Writable) :
    codec.Rereads Json.maxDepth x
      (if x.payload.depth ≤ 126 then some { x with payload := x.payload.reread } else none) := by
  have whole : codec.Rereads (126 + 1) x _ := Codec.rereads_record
    (.shown rfl (Codec.rereads_text x.kind) <|
      .shown rfl (Codec.rereads_free writable) <|
      .shown rfl (Codec.rereads_optional_word32 x.maxRetries) .nil) (by decide)
  split_ifs at whole ⊢ <;> exact whole

/-- A body is read as what it says. -/
theorem read_encode (x : Submission) (writable : x.payload.Writable)
    (shallow : x.payload.depth ≤ 126) :
    read (Utf8.encode (codec.encode x)) = .ok { x with payload := x.payload.reread } := by
  have front := (rereads_codec x writable).decodePrefix Json.stops_nil
  rw [List.append_nil, ← Utf8.decode_encode, if_pos shallow] at front
  rw [read]
  cases hread : codec.decodePrefix (Utf8.decode (Utf8.encode (codec.encode x))) with
  | error f => rw [hread] at front; cases front
  | ok r => rw [hread] at front; cases front; rfl

/-- Whatever is read as a payload is canonical, and nested at most 126 levels deep. -/
theorem payload_of_read {body : List UInt8} {x : Submission} (h : read body = .ok x) :
    x.payload.Canonical ∧ x.payload.depth ≤ 126 := by
  obtain ⟨⟨y, rest⟩, hread, rfl⟩ := Json.exists_of_map h
  obtain ⟨⟨kind, payload, maxRetries, _⟩, ⟨-, gives, -⟩, rfl⟩ := Json.gives_of_record hread
  cases gives with
  | read h => exact Json.canonical_of_value h
  | absent h => cases h; exact ⟨.null, Nat.zero_le _⟩
  | short h => cases h; exact ⟨.null, Nat.zero_le _⟩

/-- **What a body can carry.** -/
theorem admits_iff {v : Json} (exact : v.Exact) : Admits v ↔ v.Canonical ∧ v.depth ≤ 126 := by
  constructor
  · rintro ⟨body, x, read, rfl⟩
    exact payload_of_read read
  · rintro ⟨canonical, shallow⟩
    have read := read_encode ⟨"", v, none⟩ canonical.writable shallow
    exact ⟨_, _, read, canonical.reread_eq exact⟩

end Submission

/-! ## What is shown -/

/-- The job is among the views, and shown with this payload wherever it is. -/
structure ShownAmong (views : List JobView) (id : JobId) (v : Json) : Prop where
  present : ∃ view ∈ views, view.id = id.text
  same : ∀ view ∈ views, view.id = id.text → view.payload = v

/-- Whoever asks for a job, or for all of them, is shown the job with this payload.

  * `alone`   — a look at the job, by any segment that stands for its id.
  * `asked`   — a request for the job, by its id as it is written. That needs no escape if all its
    characters are unreserved, as they are in a random id.
  * `listed`  — a look at all jobs.
  * `browsed` — a request for all jobs. -/
structure Shows (s : Service) (id : JobId) (v : Json) : Prop where
  alone : ∀ segment, Percent.decode? segment = some id.text →
    ∃ view, getJob s segment = answerData 200 JobView.codec view ∧
      view.id = id.text ∧ view.payload = v
  asked : Percent.Unreserved id.text → id.text ≠ "" →
    ∀ config id' now q, q.method = "GET" → q.path = Route.jobsPath ++ "/" ++ id.text →
      ∃ view, (respond config s id' now q).1.status = 200 ∧
        (respond config s id' now q).1.body = (Envelope.codec JobView.codec).encode (.ofData view) ∧
        view.id = id.text ∧ view.payload = v
  listed : ∃ views, listJobs s = answerData 200 (.list JobView.codec) views ∧
    ShownAmong views id v
  browsed : ∀ config id' now q, q.method = "GET" → q.path = Route.jobsPath →
    ∃ views, (respond config s id' now q).1.status = 200 ∧
      (respond config s id' now q).1.body =
        (Envelope.codec (.list JobView.codec)).encode (.ofData views) ∧
      ShownAmong views id v

section
variable {s : Service} {id : JobId} {payload : List UInt8}

theorem getJob_eq {segment : String} {job : Job} (names : Percent.decode? segment = some id.text)
    (hget : s.pipeline.store.get? id = some job) :
    getJob s segment = answerData 200 JobView.codec (.ofJob job) := by
  simp only [getJob, names, Service.get, hget]

/-- What is listed of a store. -/
theorem shownAmong_list (h : s.pipeline.store.Carries id payload) :
    ShownAmong (s.list.map JobView.ofJob) id (Payload.toJson payload) where
  present := by
    obtain ⟨e, he, hid⟩ := h.present
    exact ⟨_, List.mem_map_of_mem (Store.mem_list_iff.2 ⟨e, he, rfl⟩), congrArg JobId.text hid⟩
  same := by
    refine List.forall_mem_map.2 fun job listed hid => ?_
    obtain ⟨e, he, rfl⟩ := Store.mem_list_iff.1 listed
    exact congrArg Payload.toJson (h.same e he (congrArg JobId.mk hid))

theorem shows_of_carries (h : s.pipeline.store.Carries id payload) :
    Shows s id (Payload.toJson payload) := by
  have alone (segment) (names : Percent.decode? segment = some id.text) :
      ∃ view, getJob s segment = answerData 200 JobView.codec view ∧
        view.id = id.text ∧ view.payload = Payload.toJson payload := by
    obtain ⟨job, hget, rfl⟩ := h.get?
    exact ⟨.ofJob job, getJob_eq names hget, congrArg JobId.text (Store.id_of_get? hget), rfl⟩
  refine ⟨alone, fun plain nonempty config id' now q method path => ?_,
    ⟨_, rfl, shownAmong_list h⟩, fun config id' now q method path => ?_⟩
  · obtain ⟨view, seen, shown⟩ := alone id.text (Percent.decode?_of_unreserved plain)
    have route : Route.ofPath? q.path = some (.job id.text) := by
      rw [path, ofPath?_job nonempty plain]
    obtain ⟨status, body⟩ := respond_of_get config s id' now method route
    rw [status, body, get, seen]
    exact ⟨view, rfl, rfl, shown⟩
  · obtain ⟨status, body⟩ :=
      respond_of_get config s id' now method (ofPath?_eq_jobs_iff.2 path)
    rw [status, body]
    exact ⟨_, rfl, rfl, shownAmong_list h⟩

end

/-- **Payloads come back as they were submitted.** Take a value without real numbers.

A body can carry it if it is canonical and nested at most 126 levels deep, and in no other case. If
it names its keys in another order or more than once, it is read as the canonical value it stands
for. A value that a body can carry is kept as bytes that are shown as that value again; nothing but
`null` is kept as no bytes; submitted once more as it is shown, it is the same payload; and no two
values are kept as the same bytes. When a request has submitted it, the job is shown with it for as
long as the job lives, alone and in the list. -/
theorem payload_comes_back {v : Json} (exact : v.Exact) :
    (Submission.Admits v ↔ v.Canonical ∧ v.depth ≤ 126) ∧
    (v.depth ≤ 126 → v.reread.Exact ∧ ∀ kind maxRetries,
      Submission.read (Utf8.encode (Submission.codec.encode ⟨kind, v, maxRetries⟩)) =
        .ok ⟨kind, v.reread, maxRetries⟩) ∧
    (Submission.Admits v →
      Payload.toJson (Payload.ofJson v) = v ∧
      (Payload.ofJson v = [] ↔ v = .null) ∧
      (∀ kind maxRetries, Submission.read (Utf8.encode (Submission.codec.encode
        ⟨kind, Payload.toJson (Payload.ofJson v), maxRetries⟩)) = .ok ⟨kind, v, maxRetries⟩) ∧
      (∀ w : Json, w.Exact → Submission.Admits w → Payload.ofJson w = Payload.ofJson v → w = v) ∧
      ∀ config s id now r x, Submits config s r x → x.payload = v →
        s.pipeline.store.get? id = none → ∀ later : Service, Relation.ReflTransGen Store.Serves
          (respond config s id now r).2.pipeline.store later.pipeline.store →
        later.pipeline.store.Carries id (Payload.ofJson v) ∧ Shows later id v) := by
  refine ⟨Submission.admits_iff exact, fun shallow => ⟨exact.reread, fun kind maxRetries =>
    Submission.read_encode ⟨kind, v, maxRetries⟩ exact.writable shallow⟩, fun admits => ?_⟩
  have back {w : Json} (exact : w.Exact) (admits : Submission.Admits w) :
      Payload.toJson (Payload.ofJson w) = w := by
    obtain ⟨canonical, shallow⟩ := (Submission.admits_iff exact).1 admits
    rw [Payload.toJson_ofJson canonical.writable (shallow.trans (by decide)),
      canonical.reread_eq exact]
  obtain ⟨canonical, shallow⟩ := (Submission.admits_iff exact).1 admits
  have same := back exact admits
  refine ⟨same, Payload.ofJson_eq_nil_iff canonical.writable, fun kind maxRetries => ?_, ?_, ?_⟩
  · have again := Submission.read_encode ⟨kind, v, maxRetries⟩ canonical.writable shallow
    rw [same]
    rwa [canonical.reread_eq exact] at again
  · intro w exact' admits' bytes
    rw [← back exact' admits', bytes, same]
  · intro config s id now r x submits payload fresh later life
    have kept := ((respond_of_submits submits now fresh).1.carries fresh).serves life
    have bytes : (x.job s id now).payload = Payload.ofJson v := by
      rw [← payload, ofJson_payload]
      rfl
    rw [bytes] at kept
    have shown := shows_of_carries kept
    rw [same] at shown
    exact ⟨kept, shown⟩

/-- The payload of an order. -/
def orderPayload : Json :=
  .object [("a", .array [.integer ⟨-7, by decide⟩, .null]), ("b", .string "\n")]

/-- A request for an order, its payload with keys out of order and one of them twice. -/
def orderRequest : Request where
  method := "POST"
  target := "/api/v1/jobs"
  headers := [("content-type", "application/json")]
  body := Utf8.encode ("\x7b\"type\": \"order\", \"payload\": " ++
    "\x7b\"b\": 1, \"a\": [-7, null], \"b\": \"\\n\"\x7d\x7d")

theorem exact_orderPayload : orderPayload.Exact := by
  refine .object (List.forall_mem_cons.2 ⟨.array ?_, List.forall_mem_singleton.2 (.string _)⟩)
  exact List.forall_mem_cons.2 ⟨.integer _, List.forall_mem_singleton.2 .null⟩

theorem submits_orderRequest :
    Submits {} (.ofConfig {} (.simulated 0 "always_fail")) orderRequest
      ⟨"order", orderPayload, none⟩ := by
  refine ⟨rfl, by decide +kernel, by decide +kernel, ?_, ?_, by decide +kernel, rfl⟩
  · rw [orderRequest, Utf8.encode_eq]
    decide +kernel
  · rw [orderRequest, Submission.read, Utf8.decode_encode]
    rfl

/-- The order is shown with its keys in order and the last field of each, also when the job has been
claimed. It is found under its random id, as that is written. -/
theorem orderRequest_comes_back :
    let s : Service := .ofConfig {} (.simulated 0 "always_fail")
    let id := Job.freshId 7
    let made := (respond {} s id ⟨0, 0⟩ orderRequest).2
    let claimed := made.withPipeline
      { made.pipeline with store := made.pipeline.store.apply (.claim id) }
    let look := respond {} claimed ⟨"b"⟩ ⟨9, 0⟩
      ⟨"GET", "/api/v1/jobs/00000000-0000-4000-8000-000000000007", [], []⟩
    claimed.pipeline.store.Carries id (Utf8.encode "\x7b\"a\":[-7,null],\"b\":\"\\n\"\x7d") ∧
      Shows claimed id orderPayload ∧
      ∃ view, look.1.status = 200 ∧
        look.1.body = (Envelope.codec JobView.codec).encode (.ofData view) ∧
        view.id = id.text ∧ view.payload = orderPayload := by
  intro s id made claimed look
  obtain ⟨-, -, back⟩ := payload_comes_back exact_orderPayload
  obtain ⟨-, -, -, -, kept⟩ := back ⟨_, _, submits_orderRequest.read, rfl⟩
  obtain ⟨carries, shows⟩ := kept {} s id ⟨0, 0⟩ orderRequest _ submits_orderRequest rfl rfl claimed
    (.single (.operate _ (.claim id) nofun))
  exact ⟨carries, shows, shows.asked (Uuid.unreserved_v4 7) (by decide +kernel) {} ⟨"b"⟩ ⟨9, 0⟩ _ rfl
    (by decide +kernel)⟩

end Api
end JobPipeline
