import JobPipeline.Api.Message
import JobPipeline.Config.App

/-!
# Calls from browsers

`Cors` says to which origins a browser may show the answers. It adds headers to every response, and
it answers `OPTIONS` requests by itself, whatever they ask about.
-/

namespace JobPipeline.Api

/-- Which origins may call. -/
inductive Cors
  | silent
  | anyOrigin
  | origins (list : List String)
deriving DecidableEq, Repr

namespace Cors

/-- The rule of a configuration. An origin that cannot be written in a header is left out. -/
def ofConfig (c : ServerConfig) : Cors :=
  if !c.corsEnabled then .silent
  else if "*" ∈ c.corsOrigins then .anyOrigin
  else .origins (c.corsOrigins.filter isHeaderValue)

def allowOrigin (c : Cors) (r : Request) : List (String × String) :=
  match c with
  | .silent => []
  | .anyOrigin => [("access-control-allow-origin", "*")]
  | .origins list => match r.header? "origin" with
    | some origin => if origin ∈ list then [("access-control-allow-origin", origin)] else []
    | none => []

/-- The headers of an answer to an `OPTIONS` request. -/
def preflight (c : Cors) (r : Request) : List (String × String) :=
  c.allowOrigin r ++ match c with
    | .silent => []
    | _ => [("access-control-allow-methods", "*"), ("access-control-allow-headers", "*")]

/-- The headers of any other answer. -/
def actual (c : Cors) (r : Request) : List (String × String) :=
  c.allowOrigin r ++ match c with
    | .anyOrigin => [("access-control-expose-headers", "*")]
    | _ => []

end Cors
end JobPipeline.Api
