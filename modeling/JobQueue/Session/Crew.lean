import JobQueue.Pool.Work
import JobQueue.Session.Script

/-!
# Crews

A crew is a pool of scripted handlers on a clock of whole milliseconds.  For each
slot it holds what the slot waits for.  A wait for the clock has an *alarm*, the
time at which it is over with the place of the alarm in the order of all alarms.
Spans are rounded up to whole milliseconds.
-/

namespace JobQueue

/-- A time at which something is woken. -/
structure Alarm where
  /-- The time. -/
  due : Nat
  /-- The number of alarms that were set before. -/
  number : Nat
deriving DecidableEq, Repr

/-- What a slot waits for. -/
inductive Wait where
  /-- Nothing yet. -/
  | nothing
  /-- The end of a pause. -/
  | pause (alarm : Alarm)
  /-- Its handler, which is about to act: the end of the wait of its action, if that
  waits at all, and the time at which the handler is cut off. -/
  | action (action : Action) (alarm : Option Alarm) (limit : Option Alarm)
  /-- Its handler, which acts: its end, and the time at which it is cut off. -/
  | ending (act : Act) (limit : Option Alarm)
deriving DecidableEq, Repr

namespace Wait

/-- The wait for a handler, whose alarms are set at a time and numbered from `number`
on: first that of its action, then that which cuts it off. -/
def ofAction (a : Action) (timeout : Option Span) (now number : Nat) : Wait :=
  .action a
    (a.wait.map fun ms => { due := now + min ms Span.longestWait.millis, number })
    (timeout.map fun d => { due := now + d.asWait.millisUp, number := number + 1 })

/-- The alarms that are set. -/
def alarms : Wait → List Alarm
  | nothing => []
  | pause alarm => [alarm]
  | action _ alarm limit => alarm.toList ++ limit.toList
  | ending _ limit => limit.toList

/-- Whether a wait looks at the clock when it begins. -/
def usesClock (isCancelled : Bool) : Wait → Bool
  | nothing => false
  | pause _ => true
  | action a alarm limit => alarm.isSome || (limit.isSome && a.act.blocks isCancelled)
  | ending act limit => limit.isSome && act.blocks isCancelled

/-- Whether a handler waits for its context to be cancelled. -/
def isParked : Wait → Bool
  | ending .park _ => true
  | _ => false

end Wait

/-- How a handler goes on. -/
inductive Progress where
  /-- It does not. -/
  | stays
  /-- Its action is through with its wait, if it had one, and acts. -/
  | acts (action : Action) (hadWait : Bool) (limit : Option Alarm)
  /-- It ends. -/
  | ends (e : Ending)

/-- How a handler that can be cut off stays where it is. -/
def Progress.blocked (now : Nat) (limit : Option Alarm) : Progress :=
  if limit.any fun a => a.due ≤ now then .ends .timedOut else .stays

/-- How a handler goes on at a time.  An action that is through wins over the
time at which the handler is cut off. -/
def Wait.progress (now : Nat) (isCancelled : Bool) : Wait → Progress
  | action a none limit => .acts a false limit
  | action a (some alarm) limit =>
    if alarm.due ≤ now then .acts a true limit else .blocked now limit
  | ending .succeed _ => .ends (.returned (.ok ()))
  | ending (.fail e) _ => .ends (.returned (.error e))
  | ending (.panic text) _ => .ends (.panicked text)
  | ending .park limit => if isCancelled then .ends (.returned (.ok ())) else .blocked now limit
  | ending .hang limit => .blocked now limit
  | nothing | pause _ => .stays

/-- A pool on a clock. -/
structure Crew where
  /-- The pool. -/
  pool : Pool Script
  /-- What its slots wait for. -/
  waits : List Wait

namespace Crew

/-- The crew of a new pool. -/
def ofPool (pool : Pool Script) : Crew where
  pool := pool
  waits := List.replicate pool.slots.length .nothing

/-- The scripted handler of a task. -/
def script (c : Crew) (t : Task) : Script :=
  match c.pool.registry.resolve t.envelope.type with
  | some (_, script) => script
  | none => {}

/-- What a slot waits for. -/
def wait (c : Crew) (slot : Nat) : Wait := (c.waits[slot]?).getD .nothing

/-- Let a slot wait for something. -/
def setWait (c : Crew) (slot : Nat) (wait : Wait) : Crew :=
  { c with waits := c.waits.set slot wait }

/-- Whether the context of the invocation that a slot waits for is cancelled. -/
def isCancelled (c : Crew) (f : Phase) : Bool := f.call?.any c.pool.isCancelled

/-- What a slot has to wait for in its phase, with alarms that are set at a time
and numbered from `number` on. -/
def waitOf (c : Crew) (now number : Nat) (f : Phase) : Wait :=
  match f with
  | .running t _ =>
    .ofAction ((c.script t).action t.context.job t.context.attempt) (c.pool.limit? f) now number
  | .hooked t _ _ => .ofAction (c.script t).hook (c.pool.limit? f) now number
  | .idle => .pause { due := now + c.pool.settings.pollInterval.asWait.millisUp, number }
  | _ => .nothing

end Crew

end JobQueue
