import JobQueue.Session.Basic

/-!
# The clock of a session

What waits for a time is woken at that time in the order in which the alarms were
set, and everything that it leads to is done before the clock goes on.  Those that
are woken have their turns one after the other; those that have used up their
turns get further ones when no one else is left, the latest first.
-/

namespace JobQueue

namespace Session

/-! ## The reaper -/

/-- Forget records that did not change for a span: the number of them. -/
def reap (s : Session) (retention : Span) : Nat × Session :=
  let (removed, broker) := s.broker.reap retention s.now
  (removed, { s with broker })

/-- Let the reaper make a round. -/
def runReaper (s : Session) : Session :=
  match s.reaper with
  | none => s
  | some r =>
    let (removed, s) := s.reap r.retention
    let late := (s.tick - r.origin) * milliNanos / max r.interval.nanos 1 + 1
    let s :=
      { s with
        reaper := some { r with rounds := max (r.rounds + 1) late, number := s.alarmCount }
        alarmCount := s.alarmCount + 1 }
    if removed = 0 then s
    else
      s.report
        [{ level := .info, message := "pruned finished job records"
           fields := [("removed", toString removed)] }]

/-! ## Sleepers -/

/-- What is woken. -/
inductive Sleeper where
  /-- A slot of a crew. -/
  | slot (crew slot : Nat)
  /-- The reaper. -/
  | reaper
deriving DecidableEq, Repr

/-- Let a sleeper have a turn, and tell whether it has used it up. -/
def wake (s : Session) : Sleeper → Bool × Session
  | .slot crew slot => run crew slot s.effort turnAllowance s
  | .reaper =>
    (false, if s.reaper.any fun r => r.alarm.due ≤ s.tick then s.runReaper else s)

/-- Let sleepers have their turns, with a bound on the turns; `late` are those that
have used one up, the latest first. -/
def wakeAll : Nat → List Sleeper → List Sleeper → Session → Session
  | 0, _, _, s => s
  | _ + 1, [], [], s => s
  | bound + 1, [], w :: late, s => wakeAll bound (w :: late) [] s
  | bound + 1, w :: rest, late, s =>
    match s.wake w with
    | (false, s) => wakeAll bound rest late s
    | (true, s) => wakeAll bound rest (w :: late) s

/-- Let sleepers go on until they wait.  A turn that is used up holds a move, so the
bound has room for every such turn and for the rounds that follow them. -/
def letGo (s : Session) (sleepers : List Sleeper) : Session :=
  wakeAll (sleepers.length + 2 * s.effort) sleepers [] s

/-- Put a sleeper among others in the order of their numbers. -/
def insertSleeper (w : Nat × Sleeper) : List (Nat × Sleeper) → List (Nat × Sleeper)
  | [] => [w]
  | v :: rest => if w.1 < v.1 then w :: v :: rest else v :: insertSleeper w rest

/-- Sleepers in the order of their numbers. -/
def inOrder (ws : List (Nat × Sleeper)) : List Sleeper :=
  (ws.foldl (fun l w => insertSleeper w l) []).map Prod.snd

/-- The slots of a crew. -/
def slotsOf (crew : Nat) (c : Crew) : List Sleeper :=
  (List.range c.pool.slots.length).map (.slot crew)

/-- The slots of a crew whose handlers wait for their contexts to be cancelled, in
the order in which the end of a stop wakes them: that of the latest invocation,
then the others from the earliest on. -/
def parked (crew : Nat) (c : Crew) : List Sleeper :=
  let invocation (slot : Nat) : Option (Nat × Sleeper) :=
    if (c.wait slot).isParked then
      ((c.pool.slots[slot]?).bind Phase.call?).map fun n => (n, .slot crew slot)
    else none
  let slots := inOrder ((List.range c.pool.slots.length).filterMap invocation)
  slots.getLast?.toList ++ slots.dropLast

/-- Let all slots of a crew go on until they wait. -/
def runCrew (s : Session) (crew : Nat) : Session :=
  match s.crews[crew]? with
  | none => s
  | some c => s.letGo (slotsOf crew c)

/-! ## Alarms -/

/-- The alarms that are set, each with its sleeper. -/
def alarms (s : Session) : List (Alarm × Sleeper) :=
  let ofSlot (crew : Nat) (wait : Wait × Nat) : List (Alarm × Sleeper) :=
    wait.1.alarms.map fun alarm => (alarm, .slot crew wait.2)
  let ofCrew (crew : Crew × Nat) : List (Alarm × Sleeper) :=
    crew.1.waits.zipIdx.flatMap (ofSlot crew.2)
  s.crews.zipIdx.flatMap ofCrew ++ s.reaper.toList.map fun r => (r.alarm, .reaper)

/-- The next time at which something is woken. -/
def nextTick? (s : Session) : Option Nat :=
  ((s.alarms.map fun a => a.1.due).filter fun due => s.tick < due).min?

/-- Who is woken now, in the order of the alarms. -/
def woken (s : Session) : List Sleeper :=
  let now := s.alarms.filter fun a => a.1.due = s.tick
  (inOrder (now.map fun a => (a.1.number, a.2))).eraseDups

/-- Let everything that is woken now go on. -/
def ring (s : Session) : Session := s.letGo s.woken

/-- Let the clock go on to a time. -/
def goTo (target : Nat) : Nat → Session → Session
  | 0, s => { s with tick := target }
  | bound + 1, s =>
    match s.nextTick? with
    | none => { s with tick := target }
    | some next =>
      if next ≤ target then goTo target bound { s with tick := next }.ring
      else { s with tick := target }

/-- Let some milliseconds pass, at most thirty years of them. -/
def sleep (s : Session) (ms : Nat) : Session :=
  let ms := min ms Span.longestWait.millis
  goTo (s.tick + ms) (ms + 1) s

/-- Set the time of day. -/
def setDayTime (s : Session) (t : Instant) : Session := { s with dayTime := t, dayTick := s.tick }

end Session

end JobQueue
