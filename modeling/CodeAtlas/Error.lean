import CodeAtlas.Files.Walk
import CodeAtlas.Module.Validate

/-!
Why an analysis fails.
-/
namespace CodeAtlas

inductive ConfigFault where
  /-- The text is not TOML, or a value in it is not of the kind that its
  setting needs. -/
  | malformed
  /-- A number is too large to be written. -/
  | unwritable
  | noWorkers
  | noExtensions
  deriving DecidableEq, Repr, Inhabited

def ConfigFault.message : ConfigFault → String
  | .malformed => "not a valid configuration"
  | .unwritable => "out-of-range value"
  | .noWorkers => "performance.max_workers must be at least 1"
  | .noExtensions => "scanning.extensions must list at least one extension"

inductive Error where
  | root (cause : RootError)
  | config (fault : ConfigFault)
  | pattern (cause : PatternError)
  | io (cause : FileError)
  | validation (cause : ValidationError)
  | timeout (seconds : Nat)
  deriving DecidableEq, Repr, Inhabited

def Error.message : Error → String
  | .root cause => cause.message
  | .config fault => "Configuration error: " ++ fault.message
  | .pattern cause => cause.message
  | .io cause => "IO error: " ++ cause.message
  | .validation cause => "Analysis result is inconsistent: " ++ cause.message
  | .timeout seconds => s!"Analysis did not finish within {seconds} seconds"

end CodeAtlas
