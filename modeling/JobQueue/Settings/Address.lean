import JobQueue.Job.Payload
import JobQueue.Settings.Basic

/-!
# Addresses of brokers

Where a broker is, and which brokers there are: those with the scheme `memory`.
-/

namespace JobQueue

open Json (TextLayout required)

/-- Where a broker is. -/
structure Address where
  /-- The address, a scheme and what is behind it. -/
  url : String
  /-- The password. -/
  password : Option String
deriving DecidableEq, Repr

namespace Address

/-- The default address. -/
def default : Address where
  url := "memory://"
  password := none

instance : Inhabited Address := ⟨default⟩

/-- The default address with that of an environment laid over it; an empty
password is none. -/
def ofEnvironment (env : Environment) : Address where
  url := (env "BROKER_URL").getD default.url
  password := (env "BROKER_PASSWORD").filter fun p => p ≠ ""

/-- What the address starts with, up to the first `://`. -/
def scheme (a : Address) : String :=
  match cutAt [':', '/', '/'] a.url.toList with
  | some (scheme, _) => String.ofList scheme
  | none => ""

/-- What keeps a client from connecting. -/
def fault? (a : Address) : Option QueueError :=
  if a.scheme = "memory" then none else some (.unsupported s!"broker scheme '{a.scheme}'")

/-- An address as a value. -/
def json (a : Address) : Json :=
  .obj [("url", .str a.url), ("password", .ofOption .str a.password)]

/-- The parts of an address that are gathered so far. -/
structure Draft where
  /-- The address. -/
  url : Option String := none
  /-- The password. -/
  password : Option (Option String) := none

/-- The layout of addresses. -/
def layout : TextLayout Draft Address where
  title := "struct BrokerConfig"
  lengthTitle := "struct BrokerConfig with 2 elements"
  fields :=
    [.scanned "url" (·.url.isSome) (fun _ => Json.textValue) fun v d => { d with url := some v },
     .scanned "password" (·.password.isSome) (fun _ => Json.optionValue Json.textValue)
      fun v d => { d with password := some v }]
  start := {}
  finish d := (required "url" d.url).map fun url => { url, password := d.password.getD none }

/-- Read an address. -/
def reader : Nat → Reader Address := Json.recordValue layout

end Address

end JobQueue
