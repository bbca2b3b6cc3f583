import JobPipeline.Job.Error

/-!
# Errors of the configuration

A configuration fails to load because a source cannot be read as what it should be, or because the
values that were read cannot be run with.
-/

namespace JobPipeline

/-- Why there is no configuration. -/
inductive ConfigError
  /-- A source cannot be read, or a value has the wrong type. -/
  | load
  | invalid (text : String)
deriving DecidableEq, Repr

namespace ConfigError

def invalidMessage (text : String) : String := "Invalid configuration: " ++ text

/-- The configuration error that a job error amounts to; a refused job configuration is told in its
own words. -/
def ofJobError : JobError → ConfigError
  | .configuration text => .invalid text
  | e => .invalid e.message

end ConfigError
end JobPipeline
