/-!
# Notices

What the parts of a queue report about their work, besides their answers.
-/

namespace JobQueue

/-- How grave a notice is. -/
inductive Level where
  /-- All is well. -/
  | info
  /-- Something may be wrong. -/
  | warn
  /-- Something is wrong. -/
  | error
deriving DecidableEq, Repr

/-- The name of a level. -/
def Level.name : Level → String
  | info => "INFO"
  | warn => "WARN"
  | error => "ERROR"

/-- A notice. -/
structure Notice where
  /-- How grave it is. -/
  level : Level
  /-- What it says. -/
  message : String
  /-- What it says about its circumstances. -/
  fields : List (String × String) := []
deriving DecidableEq, Repr

end JobQueue
