import JobQueue.Job.Basic
import JobQueue.Text.Bytes
import JobQueue.Time.Instant

/-!
# Messages and their records

A *message* is what a client hands to the broker.  The broker keeps a *record*
of it: its status, how often it was handed out, and the lease of the worker that
holds it.  A *delivery* is one handing out of a message.

The changes of a record here take any status to the new one; that a record only
goes through them in order is a matter of the store, which checks the lease.
-/

namespace JobQueue

/-- The identifier of an enqueued message. -/
structure JobId where
  /-- The identifier as a text. -/
  text : String
deriving DecidableEq, Repr

/-- What shows that a worker holds the current delivery of a message. -/
structure LeaseToken where
  /-- The token as a text. -/
  text : String
deriving DecidableEq, Repr

/-- What a client hands to the broker. -/
structure Message where
  /-- The tag of the job. -/
  type : String
  /-- The queue to put the message on. -/
  queue : String
  /-- The bytes of the envelope. -/
  envelope : Bytes
  /-- The attempts that the message is allowed; 0 leaves it to the default. -/
  maxRetries : UInt32
  /-- When the message may be delivered. -/
  processAt : Instant
  /-- How long an attempt may take. -/
  timeout : Option Span
deriving DecidableEq, Repr

/-- Whether a message may be delivered. -/
def Message.isDue (m : Message) (now : Instant) : Bool := m.processAt ≤ now

/-- The attempts that a message gets. -/
def Message.budget (m : Message) : UInt32 :=
  if m.maxRetries = 0 then defaultMaxRetries else m.maxRetries

/-- Where a message stands. -/
inductive Status where
  /-- Waiting for its time. -/
  | scheduled
  /-- Waiting for a worker. -/
  | pending
  /-- Held by a worker. -/
  | active
  /-- Waiting for another attempt. -/
  | retrying (retryAt : Instant)
  /-- Done. -/
  | completed (completedAt : Instant)
  /-- Given up. -/
  | archived (archivedAt : Instant) (error : String)
deriving DecidableEq, Repr

namespace Status

/-- The name of a status. -/
def name : Status → String
  | scheduled => "scheduled"
  | pending => "pending"
  | active => "active"
  | retrying _ => "retrying"
  | completed _ => "completed"
  | archived _ _ => "archived"

/-- Whether nothing follows. -/
def isTerminal : Status → Bool
  | completed _ | archived _ _ => true
  | _ => false

end Status

/-- What the broker keeps of a message. -/
structure Record where
  /-- The identifier of the message. -/
  id : JobId
  /-- The message. -/
  message : Message
  /-- Where the message stands. -/
  status : Status
  /-- How often the message was handed out. -/
  attempt : UInt32
  /-- When the message was enqueued. -/
  createdAt : Instant
  /-- When the record changed last. -/
  updatedAt : Instant
  /-- How the last attempt failed. -/
  lastError : Option String
  /-- The lease of the worker that holds the message. -/
  lease : Option LeaseToken
deriving DecidableEq, Repr

namespace Record

/-- The record of a new message. -/
def ofMessage (id : JobId) (m : Message) (now : Instant) : Record where
  id := id
  message := m
  status := if m.isDue now then .pending else .scheduled
  attempt := 0
  createdAt := now
  updatedAt := now
  lastError := none
  lease := none

/-- Whether the message may be handed out. -/
def isDeliverable (r : Record) (now : Instant) : Bool :=
  match r.status with
  | .pending => true
  | .scheduled => r.message.isDue now
  | .retrying due => due ≤ now
  | _ => false

/-- Hand the message out. -/
def start (r : Record) (lease : LeaseToken) (now : Instant) : Record :=
  { r with status := .active, attempt := r.attempt + 1, lease := some lease, updatedAt := now }

/-- Mark the message as done. -/
def complete (r : Record) (now : Instant) : Record :=
  { r with status := .completed now, lease := none, updatedAt := now }

/-- Let the message wait for another attempt. -/
def retry (r : Record) (retryAt : Instant) (error : String) (now : Instant) : Record :=
  { r with
    status := .retrying retryAt, lastError := some error, lease := none, updatedAt := now }

/-- Give the message up. -/
def archive (r : Record) (error : String) (now : Instant) : Record :=
  { r with
    status := .archived now error, lastError := some error, lease := none, updatedAt := now }

end Record

/-- One handing out of a message. -/
structure Delivery where
  /-- The identifier of the message. -/
  job : JobId
  /-- The message. -/
  message : Message
  /-- The number of the attempt, from 1. -/
  attempt : UInt32
  /-- The lease. -/
  lease : LeaseToken
deriving DecidableEq, Repr

namespace Delivery

/-- The attempts that the message gets. -/
def maxAttempts (d : Delivery) : UInt32 := d.message.budget

/-- Whether no further attempt is left. -/
def isLast (d : Delivery) : Bool := d.maxAttempts ≤ d.attempt

end Delivery

end JobQueue
