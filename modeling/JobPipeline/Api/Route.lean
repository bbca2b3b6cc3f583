/-!
# Routes

Where a path leads. A path is matched as it is written: one slash more or less, another case or an
escape leads nowhere, and only the segment that names a job is free.
-/

namespace JobPipeline.Api

/-- The places of the API. -/
inductive Route
  | root
  | health
  | ready
  | live
  | jobs
  /-- A job, by the segment that names it, still escaped. -/
  | job (segment : String)
  | metrics
deriving DecidableEq, Repr

namespace Route

def jobsPath : String := "/api/v1/jobs"

/-- What follows some characters at the front. -/
def after? : List Char → List Char → Option (List Char)
  | [], rest => some rest
  | c :: cs, d :: rest => if c = d then after? cs rest else none
  | _ :: _, [] => none

def jobSegment? (path : String) : Option String :=
  match after? (jobsPath ++ "/").toList path.toList with
  | some segment =>
    if segment.isEmpty || segment.contains '/' then none
    else some (String.ofList segment)
  | none => none

def ofPath? (path : String) : Option Route :=
  if path = "/" then some .root
  else if path = "/health" then some .health
  else if path = "/ready" then some .ready
  else if path = "/live" then some .live
  else if path = jobsPath then some .jobs
  else if path = "/api/v1/metrics" then some .metrics
  else (jobSegment? path).map .job

def methods : Route → List String
  | .jobs => ["GET", "HEAD", "POST"]
  | _ => ["GET", "HEAD"]

def allow (r : Route) : String × String := ("allow", ",".intercalate r.methods)

end Route
end JobPipeline.Api
