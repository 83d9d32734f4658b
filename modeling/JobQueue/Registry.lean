import JobQueue.Error
import JobQueue.Job.Basic
import JobQueue.Text.Named

/-!
# Registries

Which handler there is for which kind of job.  A kind has one handler: the first
one that is registered stays, and a further one is refused.
-/

namespace JobQueue

/-- The handlers of kinds of jobs. -/
structure Registry (η : Type) where
  /-- The kinds with their handlers, in the order in which they came. -/
  routes : List (JobKind × η) := []

namespace Registry

variable {η : Type}

/-- The kind with a tag and its handler. -/
def resolve (r : Registry η) (tag : String) : Option (JobKind × η) :=
  r.routes.find? fun route => route.1.tag = tag

/-- Whether there is a handler for a tag. -/
def isRegistered (r : Registry η) (tag : String) : Bool := (r.resolve tag).isSome

/-- Register a handler for a kind. -/
def register (r : Registry η) (kind : JobKind) (handler : η) : Except QueueError (Registry η) :=
  if r.isRegistered kind.tag then .error (.duplicateType kind.tag)
  else .ok { routes := r.routes ++ [(kind, handler)] }

/-- The tags with a handler, in ascending order. -/
def types (r : Registry η) : List String :=
  (sortNamed (r.routes.map fun route => (route.1.tag, ()))).map Prod.fst

/-- The number of handlers. -/
def size (r : Registry η) : Nat := r.routes.length

/-- Whether there are no handlers. -/
def isEmpty (r : Registry η) : Bool := r.routes.isEmpty

/-- What a tag resolves to has that tag. -/
theorem tag_of_resolve {r : Registry η} {tag : String} {route : JobKind × η}
    (h : r.resolve tag = some route) : route.1.tag = tag := by
  simpa using List.find?_some h

/-- Registering a kind changes what its own tag resolves to only. -/
theorem resolve_register {r r' : Registry η} {kind : JobKind} {handler : η}
    (h : r.register kind handler = .ok r') (tag : String) :
    r'.resolve tag = if tag = kind.tag then some (kind, handler) else r.resolve tag := by
  unfold register at h
  split at h
  · cases h
  · next hn =>
    cases h
    have hnone : r.resolve kind.tag = none := by simpa [isRegistered] using hn
    unfold resolve at *
    rw [List.find?_append]
    by_cases ht : tag = kind.tag
    · subst ht
      simp [hnone]
    · have hne : ¬ kind.tag = tag := fun e => ht e.symm
      simp [ht, hne]

end Registry

end JobQueue
