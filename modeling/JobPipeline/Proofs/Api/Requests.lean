import JobPipeline.Api.Endpoint
import JobPipeline.Proofs.Queue.Discipline
import JobPipeline.Proofs.Store.Records
import JobPipeline.Proofs.Text.Percent
import Mathlib

/-!
# A request does all or nothing

An answer other than 201 leaves the service as it was. A 201 is the answer to a request that
`Submits` a job, and to no other; the service then `Gains` that job in one update of its store, its
ledger and its queue, and the body shows it.

The cases follow the order in which a request is checked: its method, its path, what is asked of its
body (`submissionOf_eq_ok_iff`), and last whether creations are accepted (`create_of_accepting`,
`create_of_refused`). A `GET` is answered with what is found at its place (`respond_of_get`), and the
place of a job is its id behind the path of the jobs (`ofPath?_job`).
-/

namespace JobPipeline

/-- The service as it is with one job more. -/
structure Service.Gains (s : Service) (job : Job) (s' : Service) : Prop where
  /-- Nothing but the shared parts is touched. -/
  only : s' = s.withPipeline s'.pipeline
  stored : s'.pipeline.store = ⟨s.pipeline.store.entries ++ [⟨s.pipeline.store.nextSeq, job⟩],
    s.pipeline.store.nextSeq + 1⟩
  found : s'.get job.id = .ok job
  others : ∀ id, id ≠ job.id → s'.get id = s.get id
  counted : s'.ledger = { s.ledger with created := s.ledger.created + 1 }
  /-- The queue takes the id if it can, and is as it was if it cannot. -/
  offered : s'.pipeline.queue =
    if s.pipeline.queue.isOpen = true ∧
        s.pipeline.queue.buffer.length < s.pipeline.queue.capacity then
      { s.pipeline.queue with buffer := s.pipeline.queue.buffer ++ [job.id] }
    else s.pipeline.queue

theorem Queue.offer_snd (q : Queue) (id : JobId) :
    (q.offer id).2 =
      if q.isOpen = true ∧ q.buffer.length < q.capacity then { q with buffer := q.buffer ++ [id] }
      else q := by
  by_cases isOpen : q.isOpen = true
  · by_cases room : q.buffer.length < q.capacity
    · rw [offer_of_room isOpen room, if_pos ⟨isOpen, room⟩]
    · rw [offer_of_full isOpen room, if_neg fun h => room h.2]
  · rw [offer_of_closed (Bool.eq_false_iff.2 isOpen), if_neg fun h => isOpen h.1]

/-- A creation under a fresh id puts the record behind all others. -/
theorem Store.create_of_fresh {s : Store} {job : Job} (fresh : s.get? job.id = none) :
    s.create job false = .ok ⟨s.entries ++ [⟨s.nextSeq, job⟩], s.nextSeq + 1⟩ := by
  have others : (s.entries.filter fun e => e.job.id ≠ job.id) = s.entries := by
    refine List.filter_eq_self.2 fun e he => decide_eq_true fun h => ?_
    exact get?_eq_none_iff.1 fresh (List.mem_map.2 ⟨e, he, h⟩)
  rw [create_eq_ok_iff, others]
  exact ⟨rfl, rfl⟩

namespace Service

variable {s : Service} {id : JobId} {now : Instant} {r : JobRequest}

theorem create_of_refused (refused : s.isAccepting = false) :
    s.create id now r = (.error .cancelled, s) := by
  rw [create, refused]
  rfl

theorem create_of_accepting (now : Instant) (r : JobRequest) (accepting : s.isAccepting = true)
    (fresh : s.pipeline.store.get? id = none) :
    ∃ s', s.create id now r = (.ok (s.jobFor id now r), s') ∧ s.Gains (s.jobFor id now r) s' := by
  have stored := Store.create_of_fresh
    (show s.pipeline.store.get? (s.jobFor id now r).id = none from fresh)
  let after : Service := s.withPipeline
    { store := ⟨s.pipeline.store.entries ++ [⟨s.pipeline.store.nextSeq, s.jobFor id now r⟩],
        s.pipeline.store.nextSeq + 1⟩
      queue := (s.pipeline.queue.offer id).2
      ledger := { s.ledger with created := s.ledger.created + 1 } }
  have lookup (i : JobId) : after.pipeline.store.get? i = _ := Store.get?_create stored i
  refine ⟨after, ?_, ⟨rfl, rfl, ?_, ?_, rfl, s.pipeline.queue.offer_snd id⟩⟩
  · rw [create, accepting]
    simp only [Bool.not_true, Creation.run, iterate, Creation.step, stored]
    rfl
  · rw [get, lookup, if_pos rfl]
  · intro i hi
    rw [get, get, lookup, if_neg hi]

end Service

namespace Api

@[simp] theorem Response.status_adding (a : Response) (headers : List (String × String)) :
    (a.adding headers).status = a.status := rfl

@[simp] theorem Response.body_adding (a : Response) (headers : List (String × String)) :
    (a.adding headers).body = a.body := rfl

@[simp] theorem Response.status_encoded (r : Request) (a : Response) :
    (a.encoded r).status = a.status := by
  unfold encoded; split <;> rfl

@[simp] theorem Response.body_encoded (r : Request) (a : Response) :
    (a.encoded r).body = a.body := by
  unfold encoded; split <;> rfl

/-- The bytes that are kept of a payload: none of `null`, and of any other value its text in
UTF-8. -/
def Submission.bytes (x : Submission) : List UInt8 :=
  match x.payload with
  | .null => []
  | v => v.render.toUTF8.toList

theorem ofJson_payload (x : Submission) : Payload.ofJson x.payload = x.bytes := by
  rw [Submission.bytes]
  cases x.payload <;> rfl

/-- The job that a submission becomes. -/
def Submission.job (x : Submission) (s : Service) (id : JobId) (now : Instant) : Job where
  id := id
  kind := trim x.kind
  status := .pending
  payload := x.bytes
  attempts := 0
  maxRetries := x.maxRetries.getD s.config.retry.maxRetries
  lastError := none
  createdAt := now

/-- A request that the service takes a job from. -/
structure Submits (config : ServerConfig) (s : Service) (r : Request) (x : Submission) : Prop where
  method : r.method = "POST"
  path : r.path = Route.jobsPath
  isJson : r.isJson = true
  size : r.body.length ≤ config.maxBodySize.toNat
  read : Submission.read r.body = .ok x
  kind : trim x.kind ≠ ""
  accepting : s.isAccepting = true

variable {config : ServerConfig} {s : Service} {id : JobId} {now : Instant} {r : Request}

theorem request?_eq_ok_iff {x : Submission} {request : Service.JobRequest} :
    x.request? = .ok request ↔
      trim x.kind ≠ "" ∧ request = ⟨trim x.kind, x.bytes, x.maxRetries⟩ := by
  simp only [Submission.request?, String.isEmpty_iff, ofJson_payload]
  split
  · rename_i blank
    simp [blank]
  · rename_i kind
    simp [kind, eq_comm]

theorem submissionOf_eq_ok_iff {request : Service.JobRequest} :
    submissionOf config r = .ok request ↔
      r.isJson = true ∧ r.body.length ≤ config.maxBodySize.toNat ∧
        ∃ x, Submission.read r.body = .ok x ∧ x.request? = .ok request := by
  unfold submissionOf
  by_cases isJson : r.isJson = true
  · by_cases size : config.maxBodySize.toNat < r.body.length
    · simp [isJson, size]
    · cases hread : Submission.read r.body with
      | error f => cases f <;> simp [isJson, size]
      | ok x =>
        cases hrequest : x.request? <;> simp [isJson, size, hrequest, Nat.not_lt.1 size,
          Except.mapError]
  · simp [isJson]

theorem status_of_submissionOf {a : Response} (h : submissionOf config r = .error a) :
    a.status ≠ 201 := by
  unfold submissionOf at h
  split at h
  · cases h; decide
  split at h
  · cases h; decide
  split at h
  · cases h; decide
  · cases h; decide
  · rename_i x hread
    by_cases blank : (trim x.kind).isEmpty = true
    · simp only [Submission.request?, if_pos blank, Except.mapError, Except.error.injEq] at h
      subst h; decide
    · simp only [Submission.request?, if_neg blank, Except.mapError, reduceCtorEq] at h

/-! ## Answers that change nothing -/

theorem status_get (s : Service) (route : Route) : (get s route).status ≠ 201 := by
  cases route with
  | ready => cases h : s.isReady <;> simp [get, readiness, h, Response.empty]
  | job segment =>
    simp only [get, getJob, Service.get]
    split
    · decide
    · cases s.pipeline.store.get? _ <;>
        simp [answerData, answerError, Response.json, ApiError.httpStatus, JobError.httpStatus]
  | _ => simp [get, health, listJobs, readMetrics, answerData, Response.text, Response.json,
      Response.empty]

theorem ofPath?_eq_jobs_iff {path : String} :
    Route.ofPath? path = some .jobs ↔ path = Route.jobsPath := by
  constructor
  · intro h
    by_contra other
    unfold Route.ofPath? at h
    rw [if_neg other] at h
    split_ifs at h
    all_goals simp at h
  · rintro rfl
    decide

theorem post_mem_methods_iff {route : Route} : "POST" ∈ route.methods ↔ route = .jobs := by
  cases route <;> simp [Route.methods]

/-- A request that is no `POST` to the jobs is answered without a change. -/
theorem respond_of_no_post (config : ServerConfig) (s : Service) (id : JobId) (now : Instant)
    (h : ¬ (r.method = "POST" ∧ r.path = Route.jobsPath)) :
    (respond config s id now r).1.status ≠ 201 ∧ (respond config s id now r).2 = s := by
  by_cases options : r.method = "OPTIONS"
  · simp [respond, options, Response.empty]
  simp only [respond, if_neg options, Response.status_adding, answer]
  split
  · simp [Response.empty]
  rename_i route hroute
  split
  · simp [Response.empty]
  rename_i allowed
  rw [not_not] at allowed
  have notPost : r.method ≠ "POST" := by
    intro post
    rw [post, post_mem_methods_iff] at allowed
    exact h ⟨post, ofPath?_eq_jobs_iff.1 (allowed ▸ hroute)⟩
  simp only [if_neg notPost, and_true]
  split <;> simp [status_get]

theorem respond_of_post (config : ServerConfig) (s : Service) (id : JobId) (now : Instant)
    (post : r.method = "POST") (path : r.path = Route.jobsPath) :
    (respond config s id now r).1.status = (createJob config s id now r).1.status ∧
      (respond config s id now r).1.body = (createJob config s id now r).1.body ∧
      (respond config s id now r).2 = (createJob config s id now r).2 := by
  have route := ofPath?_eq_jobs_iff.2 path
  simp [respond, answer, post, route, Route.methods]

/-! ## Looks at the service -/

/-- The answer to a `GET` of a place is what is found there. -/
theorem respond_of_get {route : Route} (config : ServerConfig) (s : Service) (id : JobId)
    (now : Instant) (method : r.method = "GET") (path : Route.ofPath? r.path = some route) :
    (respond config s id now r).1.status = (get s route).status ∧
      (respond config s id now r).1.body = (get s route).body := by
  have allowed : "GET" ∈ route.methods := by cases route <;> simp [Route.methods]
  simp [respond, answer, method, path, allowed]

theorem after?_append (front rest : List Char) : Route.after? front (front ++ rest) = some rest := by
  induction front with
  | nil => rfl
  | cons c front ih => rw [List.cons_append, Route.after?, if_pos rfl, ih]

/-- Behind the path of the jobs, a segment of unreserved characters names a job as it is written. -/
theorem ofPath?_job {segment : String} (nonempty : segment ≠ "")
    (plain : Percent.Unreserved segment) :
    Route.ofPath? (Route.jobsPath ++ "/" ++ segment) = some (.job segment) := by
  have found : Route.jobSegment? (Route.jobsPath ++ "/" ++ segment) = some segment := by
    have whole : '/' ∉ segment.toList := fun slash => by cases plain _ slash
    have text : (Route.jobsPath ++ "/" ++ segment).toList =
        (Route.jobsPath ++ "/").toList ++ segment.toList := String.toList_append
    rw [Route.jobSegment?, text, after?_append]
    simp [whole, nonempty]
  -- No other place has a path of a job.
  have other {path : String} (none : Route.jobSegment? path = none) :
      Route.jobsPath ++ "/" ++ segment ≠ path := by
    rintro rfl
    rw [found] at none
    cases none
  rw [Route.ofPath?, if_neg (other (by decide)), if_neg (other (by decide)),
    if_neg (other (by decide)), if_neg (other (by decide)), if_neg (other (by decide)),
    if_neg (other (by decide)), found]
  rfl

/-! ## Submissions -/

/-- A `POST` to the jobs either submits a job or changes nothing. -/
theorem createJob_cases (config : ServerConfig) (now : Instant) (post : r.method = "POST")
    (path : r.path = Route.jobsPath) (fresh : s.pipeline.store.get? id = none) :
    (∃ x, Submits config s r x ∧ s.Gains (x.job s id now) (createJob config s id now r).2 ∧
      (createJob config s id now r).1 = answerData 201 JobView.codec (.ofJob (x.job s id now))) ∨
    ((∀ x, ¬ Submits config s r x) ∧ (createJob config s id now r).1.status ≠ 201 ∧
      (createJob config s id now r).2 = s) := by
  cases hrequest : submissionOf config r with
  | error a =>
    refine .inr ⟨fun x h => ?_, ?_⟩
    · have ok : submissionOf config r = .ok _ :=
        submissionOf_eq_ok_iff.2 ⟨h.isJson, h.size, x, h.read, request?_eq_ok_iff.2 ⟨h.kind, rfl⟩⟩
      rw [hrequest] at ok
      cases ok
    · simp [createJob, hrequest, status_of_submissionOf hrequest]
  | ok request =>
    obtain ⟨isJson, size, x, read, hrequest'⟩ := submissionOf_eq_ok_iff.1 hrequest
    obtain ⟨kind, rfl⟩ := request?_eq_ok_iff.1 hrequest'
    cases accepting : s.isAccepting with
    | true =>
      obtain ⟨s', hcreate, gains⟩ := Service.create_of_accepting now
        ⟨trim x.kind, x.bytes, x.maxRetries⟩ accepting fresh
      refine .inl ⟨x, ⟨post, path, isJson, size, read, kind, accepting⟩, ?_⟩
      simp only [createJob, hrequest, hcreate]
      exact ⟨gains, rfl⟩
    | false =>
      refine .inr ⟨fun x h => ?_, ?_⟩
      · rw [h.accepting] at accepting
        cases accepting
      · simp [createJob, hrequest, Service.create_of_refused accepting, answerError,
          Response.json, ApiError.httpStatus, JobError.httpStatus]

/-- A submission is answered with 201 and gives the service its job. -/
theorem respond_of_submits {x : Submission} (submits : Submits config s r x) (now : Instant)
    (fresh : s.pipeline.store.get? id = none) :
    s.Gains (x.job s id now) (respond config s id now r).2 ∧
      (respond config s id now r).1.status = 201 ∧
      (respond config s id now r).1.body =
        (Envelope.codec JobView.codec).encode (.ofData (.ofJob (x.job s id now))) := by
  obtain ⟨status, body, after⟩ := respond_of_post config s id now submits.method submits.path
  rw [status, body, after]
  obtain ⟨y, submits', gains, answer⟩ | ⟨none, -⟩ :=
    createJob_cases config now submits.method submits.path fresh
  · obtain rfl : x = y := Except.ok.inj (submits.read.symm.trans submits'.read)
    rw [answer]
    exact ⟨gains, rfl, rfl⟩
  · exact absurd submits (none x)

/-- **A request does all or nothing.** Whatever is asked, and in whatever state the service is: an
answer other than 201 leaves the service as it was. The answer is 201 exactly if the request submits
a job; then the service has that job, new and pending, stored, counted and offered to the queue, and
nothing else has changed. The body shows the job. -/
theorem respond_all_or_nothing (config : ServerConfig) (s : Service) (id : JobId) (now : Instant)
    (r : Request) (fresh : s.pipeline.store.get? id = none) :
    ((respond config s id now r).1.status ≠ 201 → (respond config s id now r).2 = s) ∧
    ((respond config s id now r).1.status = 201 ↔ ∃ x, Submits config s r x) ∧
    ∀ x, Submits config s r x →
      s.Gains (x.job s id now) (respond config s id now r).2 ∧
      (respond config s id now r).1.body =
        (Envelope.codec JobView.codec).encode (.ofData (.ofJob (x.job s id now))) := by
  by_cases taken : ∃ x, Submits config s r x
  · obtain ⟨x, submits⟩ := taken
    obtain ⟨gains, status, body⟩ := respond_of_submits submits now fresh
    refine ⟨fun other => absurd status other, ⟨fun _ => ⟨x, submits⟩, fun _ => status⟩, ?_⟩
    intro y hy
    obtain rfl : x = y := Except.ok.inj (submits.read.symm.trans hy.read)
    exact ⟨gains, body⟩
  · have refused :
        (respond config s id now r).1.status ≠ 201 ∧ (respond config s id now r).2 = s := by
      by_cases h : r.method = "POST" ∧ r.path = Route.jobsPath
      · obtain ⟨status, -, after⟩ := respond_of_post config s id now h.1 h.2
        rw [status, after]
        obtain ⟨x, submits, -⟩ | ⟨-, refused⟩ := createJob_cases config now h.1 h.2 fresh
        · exact absurd ⟨x, submits⟩ taken
        · exact refused
      · exact respond_of_no_post config s id now h
    exact ⟨fun _ => refused.2, ⟨fun h => absurd h refused.1, fun h => absurd h taken⟩,
      fun x submits => absurd ⟨x, submits⟩ taken⟩

/-- A request for a mail, its budget given and its kind with blanks around it. -/
def mailRequest : Request where
  method := "POST"
  target := "/api/v1/jobs?by=hand"
  headers := [("Content-Type", "application/json; charset=utf-8")]
  body := Utf8.encode ("\x7b\"max_retries\": 7, \"payload\": \x7b\"to\" : [\"ann\", 2]\x7d, " ++
    "\"type\": \" email_send \"\x7d")

/-- A fresh service takes the request for a mail: it keeps the payload as the bytes of its compact
text, buffers the id of the job, and shows it in the answer. -/
theorem mailRequest_taken :
    let s : Service := .ofConfig {} (.simulated 0 "always_fail")
    let payload : Json := .object [("to", .array [.string "ann", .integer ⟨2, by decide⟩])]
    let x : Submission := ⟨" email_send ", payload, some 7⟩
    let job : Job := ⟨⟨"a"⟩, "email_send", .pending,
      [123, 34, 116, 111, 34, 58, 91, 34, 97, 110, 110, 34, 44, 50, 93, 125], 0, 7, none, ⟨0, 0⟩⟩
    let done := respond {} s ⟨"a"⟩ ⟨0, 0⟩ mailRequest
    Submits {} s mailRequest x ∧ x.job s ⟨"a"⟩ ⟨0, 0⟩ = job ∧
      done.1.status = 201 ∧ s.Gains job done.2 ∧ done.2.pipeline.queue.buffer = [⟨"a"⟩] ∧
      done.1.body = "\x7b\"success\":true,\"data\":\x7b\"id\":\"a\",\"type\":\"email_send\"," ++
        "\"status\":\"pending\",\"payload\":\x7b\"to\":[\"ann\",2]\x7d,\"attempts\":0," ++
        "\"max_retries\":7,\"last_error\":null,\"created_at\":\"1970-01-01T00:00:00Z\"\x7d\x7d" := by
  intro s payload x job done
  have submits : Submits {} s mailRequest x := by
    refine ⟨rfl, by decide +kernel, by decide +kernel, ?_, ?_, by decide +kernel, rfl⟩
    · rw [mailRequest, Utf8.encode_eq]
      decide +kernel
    · rw [mailRequest, Submission.read, Utf8.decode_encode]
      rfl
  have stored : x.job s ⟨"a"⟩ ⟨0, 0⟩ = job := by
    have bytes : x.bytes = payload.render.toList.flatMap String.utf8EncodeChar := Utf8.encode_eq _
    rw [Submission.job, bytes]
    decide +kernel
  obtain ⟨-, status, gains⟩ := respond_all_or_nothing {} s ⟨"a"⟩ ⟨0, 0⟩ mailRequest rfl
  obtain ⟨gains, body⟩ := gains x submits
  rw [stored] at gains body
  refine ⟨submits, stored, status.2 ⟨x, submits⟩, gains, ?_, ?_⟩
  · rw [gains.offered]
    rfl
  · rw [body]
    decide +kernel

end Api
end JobPipeline
