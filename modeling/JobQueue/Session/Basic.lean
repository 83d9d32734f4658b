import JobQueue.Dispatch
import JobQueue.Session.Crew

/-!
# Sessions

A session is a broker with its clients, crews and a reaper on one clock, which
stands still while anything can go on.  The clock counts whole milliseconds from
the start of the session; the time of day follows it and can be set.

Here are the moves of slots: `Session.turn` says how a slot goes on.  A slot goes
on until it waits, or until it has looked at the clock so often without waiting
that others come first.
-/

namespace JobQueue

/-- A call of a handler, as a session tells of it. -/
structure Call where
  /-- The number of the crew. -/
  crew : Nat
  /-- The number of the invocation in its pool. -/
  number : Nat
  /-- When it was made. -/
  tick : Nat
  /-- Whether its context was cancelled already. -/
  wasCancelled : Bool
deriving DecidableEq, Repr

/-- What forgets old records again and again. -/
structure Reaper where
  /-- How long records stay. -/
  retention : Span
  /-- The time between two rounds. -/
  interval : Span
  /-- When it started. -/
  origin : Nat
  /-- The rounds that it has made. -/
  rounds : Nat
  /-- The number of alarms that were set before that of the next round. -/
  number : Nat
deriving DecidableEq, Repr

/-- The alarm of the next round. -/
def Reaper.alarm (r : Reaper) : Alarm where
  due := r.origin + (Span.times r.rounds r.interval).millisUp
  number := r.number

/-- A broker with its clients on a clock. -/
structure Session where
  /-- What the identifiers and leases of the session begin with.  They are those of
  no one else if no text of a client begins with it. -/
  stem : String := ""
  /-- The milliseconds since the start. -/
  tick : Nat := 0
  /-- The time of day when it was set last. -/
  dayTime : Instant
  /-- When the time of day was set last. -/
  dayTick : Nat := 0
  /-- The broker. -/
  broker : Broker := {}
  /-- The number of messages that were taken. -/
  jobs : Nat := 0
  /-- The number of leases that were given. -/
  leases : Nat := 0
  /-- The deliveries to the session itself. -/
  deliveries : List Delivery := []
  /-- The crews, the last one of which is in charge. -/
  crews : List Crew := []
  /-- The reaper. -/
  reaper : Option Reaper := none
  /-- The number of alarms that were set. -/
  alarmCount : Nat := 0
  /-- The calls that were not told yet, the latest first. -/
  calls : List Call := []
  /-- The calls that were told. -/
  toldCalls : List Call := []
  /-- The notices that were not told yet, the latest first. -/
  notices : List Notice := []

namespace Session

/-- The time of day. -/
def now (s : Session) : Instant :=
  .nearest (s.dayTime.nanos + ((s.tick - s.dayTick) * milliNanos : Nat))

/-- The identifier of the message with a number. -/
def jobId (s : Session) (n : Nat) : JobId := ⟨s!"{s.stem}j{n}"⟩

/-- The lease with a number. -/
def leaseToken (s : Session) (n : Nat) : LeaseToken := ⟨s!"{s.stem}lease-{n}"⟩

/-- Report notices. -/
def report (s : Session) (notices : List Notice) : Session :=
  { s with notices := notices.reverse ++ s.notices }

/-- Change a crew. -/
def setCrew (s : Session) (crew : Nat) (c : Crew) : Session :=
  { s with crews := s.crews.set crew c }

/-- Let a slot of a crew wait for something. -/
def setWait (s : Session) (crew slot : Nat) (wait : Wait) : Session :=
  match s.crews[crew]? with
  | none => s
  | some c => s.setCrew crew (c.setWait slot wait)

/-! ## Moves of slots -/

/-- Note the call that a slot has just made. -/
def noteCall (s : Session) (crew slot : Nat) : Session :=
  match s.crews[crew]? with
  | none => s
  | some c =>
    match (c.pool.slots[slot]?).bind Phase.call? with
    | none => s
    | some number =>
      let call : Call := { crew, number, tick := s.tick, wasCancelled := c.pool.isCancelled number }
      { s with calls := call :: s.calls }

/-- A move of a slot by itself. -/
def step? (s : Session) (crew slot : Nat) (m : Move) : Option Session :=
  (s.crews[crew]?).bind fun c =>
    (c.pool.step slot m).map fun r => (s.setCrew crew { c with pool := r.1 }).report r.2

/-- A move of a slot that ends its wait. -/
def stepOn? (s : Session) (crew slot : Nat) (m : Move) : Option Session :=
  (s.step? crew slot m).map fun s => s.setWait crew slot .nothing

/-- A pull of a slot. -/
def pull? (s : Session) (crew slot : Nat) : Option Session :=
  (s.crews[crew]?).bind fun c =>
    (c.pool.pullFrom slot (fun _ => 0) (s.leaseToken s.leases) s.now s.broker).map fun r =>
      { (s.setCrew crew { c with pool := r.1 }).report r.2.2 with
        broker := r.2.1
        leases := s.leases + 1 }

/-- A verdict of a slot. -/
def settle? (s : Session) (crew slot : Nat) : Option Session :=
  (s.crews[crew]?).bind fun c =>
    (c.pool.settleWith slot s.now s.broker).map fun r =>
      { (s.setCrew crew { c with pool := r.1 }).report r.2.2 with broker := r.2.1 }

/-- Let a handler act. -/
def act (s : Session) (crew slot : Nat) (action : Action) (limit : Option Alarm) : Session :=
  let broker :=
    if action.closesBroker then { s.broker with store := s.broker.store.close } else s.broker
  { s.setWait crew slot (.ending action.act limit) with broker }

/-! ## Turns -/

/-- How often a slot may look at the clock in one turn without waiting. -/
abbrev turnAllowance : Nat := 128

/-- How a slot goes on. -/
inductive Turn where
  /-- It waits. -/
  | waits
  /-- It has looked at the clock too often and lets others go first. -/
  | isUsedUp
  /-- It goes on, and may still look at the clock so often. -/
  | goesOn (s : Session) (left : Nat)

/-- The turn of a slot that goes on if it makes a move. -/
def Turn.ofMove (left : Nat) : Option Session → Turn
  | some s => .goesOn s left
  | none => .waits

/-- Let a slot begin to wait, which it puts off if that needs a look at the clock
and none is left. -/
def beginWait (s : Session) (crew slot left : Nat) (c : Crew) (phase : Phase) : Turn :=
  let wait := c.waitOf s.tick s.alarmCount phase
  if left = 0 ∧ wait.usesClock (c.isCancelled phase) then .isUsedUp
  else .goesOn { s.setWait crew slot wait with alarmCount := s.alarmCount + 2 } left

/-- How the handler of a slot goes on, where `finish` is the move at its end. -/
def handlerTurn (s : Session) (crew slot left : Nat) (c : Crew) (phase : Phase)
    (finish : Ending → Move) : Turn :=
  match (c.wait slot).progress s.tick (c.isCancelled phase) with
  | .stays => .waits
  | .acts action hadWait limit =>
    .goesOn (s.act crew slot action limit) (if hadWait then left - 1 else left)
  | .ends .timedOut => .ofMove (left - 1) (s.stepOn? crew slot (finish .timedOut))
  | .ends e => .ofMove left (s.stepOn? crew slot (finish e))

/-- How a slot goes on that pauses until the alarm rings or its pool stops. -/
def pauseTurn (s : Session) (crew slot left : Nat) (c : Crew) (alarm : Alarm) : Turn :=
  if alarm.due ≤ s.tick ∨ c.pool.isStopping then
    .ofMove (left - 1) (s.stepOn? crew slot .wake)
  else .waits

/-- How a slot goes on at this time, with so many looks at the clock left. -/
def turn (s : Session) (crew slot left : Nat) : Turn :=
  match s.crews[crew]? with
  | none => .waits
  | some c =>
    match c.pool.slots[slot]?, c.wait slot with
    | some .ready, _ => .ofMove left (s.step? crew slot .check)
    | some .pulling, _ => .ofMove left (s.pull? crew slot)
    | some (.holding _), _ => .ofMove left (s.step? crew slot .look)
    | some (.counted _ _), _ => .ofMove left (s.step? crew slot .raise)
    | some (.calling _), _ =>
      .ofMove left ((s.step? crew slot .call).map fun s => s.noteCall crew slot)
    | some (.hooking _ _), _ =>
      .ofMove left ((s.step? crew slot .callHook).map fun s => s.noteCall crew slot)
    | some (.settling _ _ _ _), _ => .ofMove left (s.settle? crew slot)
    | some (.running t n), .nothing => s.beginWait crew slot left c (.running t n)
    | some (.hooked t e n), .nothing => s.beginWait crew slot left c (.hooked t e n)
    | some .idle, .nothing => s.beginWait crew slot left c .idle
    | some (.running t n), _ =>
      s.handlerTurn crew slot left c (.running t n) fun e => .finish e s.now
    | some (.hooked t e n), _ => s.handlerTurn crew slot left c (.hooked t e n) .finishHook
    | some .idle, .pause alarm => s.pauseTurn crew slot left c alarm
    | _, _ => .waits

/-- A bound on the moves that the slots can make at one time: a few for every
attempt that is left to the messages. -/
def effort (s : Session) : Nat :=
  s.broker.store.records.foldl
    (fun n r => n + 16 * (r.message.budget.toNat - r.attempt.toNat + 1)) 64

/-- Let a slot go on until it waits or has used up its turn, which is told. -/
def run (crew slot : Nat) : Nat → Nat → Session → Bool × Session
  | 0, _, s => (false, s)
  | bound + 1, left, s =>
    match s.turn crew slot left with
    | .waits => (false, s)
    | .isUsedUp => (true, s)
    | .goesOn s left => run crew slot bound left s

end Session

end JobQueue
