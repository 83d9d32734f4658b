import JobQueue.Envelope
import JobQueue.Registry
import JobQueue.Settings.Basic

/-!
# Workers

A worker is what a pool is started from: settings that a pool can run with, a
codec, and the handlers that are registered so far.
-/

namespace JobQueue

/-- What a pool is started from. -/
structure Worker (η : Type) where
  /-- What the pool runs with. -/
  settings : Settings
  /-- How the bytes of envelopes are arranged. -/
  codec : Codec
  /-- The handlers. -/
  registry : Registry η := {}

namespace Worker

variable {η : Type}

/-- A worker without handlers, if a pool can run with the settings. -/
def ofSettings (settings : Settings) (codec : Codec) : Except QueueError (Worker η) :=
  match settings.fault? with
  | some e => .error e
  | none => .ok { settings, codec }

/-- Register a handler for a kind of jobs. -/
def register (w : Worker η) (kind : JobKind) (handler : η) : Except QueueError (Worker η) :=
  (w.registry.register kind handler).map fun registry => { w with registry }

end Worker

/-- The handler for a tag and the job in an envelope for it, if there is a
handler for the tag. -/
def Registry.take {η : Type} (r : Registry η) (tag : String) (e : Envelope) :
    Option (Except QueueError (η × Job)) :=
  (r.resolve tag).map fun route => (e.toJob route.1).map fun job => (route.2, job)

end JobQueue
