import JobQueue.Session.Clock

/-!
# Steps of a session

What the client of a session can do: call the broker, dispatch jobs, start and
stop crews and the reaper, and ask what happened.
-/

namespace JobQueue

namespace Session

/-! ## The broker -/

/-- Let the broker take a message. -/
def enqueue (s : Session) (m : Message) : Reply JobId × Session :=
  match s.broker.enqueue (s.jobId s.jobs) m s.now with
  | (.answered (.ok id), broker) => (.answered (.ok id), { s with broker, jobs := s.jobs + 1 })
  | (reply, broker) => (reply, { s with broker })

/-- Let the broker take a message so many times: the last reply, or the first
that is no identifier. -/
def enqueueMany (s : Session) (m : Message) : Nat → Reply JobId × Session
  | 0 => s.enqueue m
  | n + 1 =>
    match s.enqueue m with
    | (.answered (.ok _), s) => s.enqueueMany m n
    | (reply, s) => (reply, s)

/-- Take over what comes of dispatching a job. -/
def dispatched (s : Session) (d : Dispatched) : Reply JobId × Session :=
  let s := { s with broker := d.broker }.report d.notices
  match d.reply with
  | .answered (.ok id) => (.answered (.ok id), { s with jobs := s.jobs + 1 })
  | reply => (reply, s)

/-- Dispatch a job. -/
def dispatch (s : Session) (codec : Codec) (choices : List Choice) (j : Job) :
    Reply JobId × Session :=
  s.dispatched (JobQueue.dispatch codec choices j (s.jobId s.jobs) s.now s.broker)

/-- Dispatch a job in one of the shorter forms. -/
def dispatchBy (s : Session) (form : JobId → Instant → Instant → Broker → Dispatched) :
    Reply JobId × Session :=
  s.dispatched (form (s.jobId s.jobs) s.now s.now s.broker)

/-- Let the broker hand out a message. -/
def dequeue (s : Session) (queues : List String) : Reply (Option Delivery) × Session :=
  match s.broker.dequeue queues (s.leaseToken s.leases) s.now with
  | (.answered (.ok (some d)), broker) =>
    (.answered (.ok (some d)),
      { s with broker, leases := s.leases + 1, deliveries := s.deliveries ++ [d] })
  | (reply, broker) => (reply, { s with broker })

/-- Settle a delivery. -/
def settle (s : Session) (d : Delivery) (verdict : Verdict) : Reply Unit × Session :=
  let (reply, broker) := s.broker.settle d verdict s.now
  (reply, { s with broker })

/-- The number of a lease among those of the session itself. -/
def leaseNumber? (s : Session) (t : LeaseToken) : Option Nat :=
  s.deliveries.findIdx? fun d => d.lease = t

/-- Forget the records that are outdated: their number. -/
def prune (s : Session) (cutoff : Instant) : Nat × Session :=
  let (removed, broker) := s.broker.prune cutoff
  (removed, { s with broker })

/-- Close the broker. -/
def close (s : Session) : Session :=
  { s with broker := { s.broker with store := s.broker.store.close } }

/-! ## Crews -/

/-- The crew in charge. -/
def crew? (s : Session) : Option Crew := s.crews.getLast?

/-- Start a crew. -/
def start (s : Session) (w : Worker Script) : Session :=
  let (pool, notices) := Pool.start w
  let s := { s with crews := s.crews ++ [Crew.ofPool pool] }.report notices
  s.runCrew (s.crews.length - 1)

/-- What comes of a stop. -/
structure StopReport where
  /-- The slots that were left behind. -/
  abandoned : Nat
  /-- The milliseconds that it took. -/
  took : Nat
deriving DecidableEq, Repr

/-- End the stop of a crew if all its slots have left their work. -/
def join? (s : Session) (crew : Nat) : Option Session :=
  (s.crews[crew]?).bind fun c =>
    c.pool.join?.map fun r => (s.setCrew crew { c with pool := r.1 }).report r.2

/-- End the stop of a crew because its time is over. -/
def abandon (s : Session) (crew : Nat) : Nat × Session :=
  match s.crews[crew]? with
  | none => (0, s)
  | some c =>
    let (n, pool, notices) := c.pool.abandon
    (n, (s.setCrew crew { c with pool }).report notices)

/-- Wait for the slots of a crew until a time, with a bound on the times at which
something is woken: the number of slots that are left behind. -/
def waitForCrew (crew : Nat) (deadline : Nat) : Nat → Session → Nat × Session
  | 0, s => s.abandon crew
  | bound + 1, s =>
    match s.join? crew with
    | some s => (0, s)
    | none =>
      match s.nextTick?.filter fun next => next < deadline with
      | some next => waitForCrew crew deadline bound { s with tick := next }.ring
      | none => { s with tick := deadline }.abandon crew

/-- Let what is left behind go on: what the clock wakes, then the slots whose
handlers wait for nothing else than the end of the stop. -/
def leaveBehind (s : Session) (crew : Nat) : Session :=
  match s.crews[crew]? with
  | none => s
  | some c =>
    let parked := parked crew c
    let others := (slotsOf crew c).filter fun w => w ∉ parked
    s.letGo (s.woken ++ others ++ parked).eraseDups

/-- Stop the crew in charge. -/
def stop (s : Session) : Option (StopReport × Session) :=
  let crew := s.crews.length - 1
  (s.crews[crew]?).map fun c =>
    let (pool, notices) := c.pool.requestStop
    let began := s.tick
    let s := (s.setCrew crew { c with pool }).report notices
    let limit := pool.settings.shutdownTimeout.asWait.millisUp
    let (abandoned, s) :=
      if limit = 0 then
        match s.join? crew with
        | some s => (0, s)
        | none => s.abandon crew
      else waitForCrew crew (began + limit) (limit + 1) (s.runCrew crew)
    ({ abandoned, took := s.tick - began }, s.leaveBehind crew)

/-! ## The reaper -/

/-- Start the reaper.  It makes its first round at once; with no time between two
rounds it does not start. -/
def startReaper (s : Session) (retention interval : Span) : Session :=
  if interval = .zero then s
  else
    let reaper : Reaper :=
      { retention, interval := interval.asWait, origin := s.tick, rounds := 0
        number := s.alarmCount }
    ({ s with reaper := some reaper }.report
      [{ level := .info, message := "record reaper started" }]).runReaper

/-- Stop the reaper. -/
def stopReaper (s : Session) : Session := { s with reaper := none }

/-! ## What happened -/

/-- The invocation of a call. -/
def invocation? (s : Session) (c : Call) : Option Invocation :=
  (s.crews[c.crew]?).bind fun crew => crew.pool.invocations[c.number]?

/-- Whether the context of a call is cancelled. -/
def isCancelled (s : Session) (c : Call) : Bool :=
  (s.crews[c.crew]?).any fun crew => crew.pool.isCancelled c.number

/-- The calls that were not told yet. -/
def newCalls (s : Session) : List Call := s.calls.reverse

/-- Tell calls, in this order. -/
def tellCalls (s : Session) (calls : List Call) : Session :=
  { s with calls := [], toldCalls := s.toldCalls ++ calls }

/-- The notices that were not told yet. -/
def tellNotices (s : Session) : List Notice × Session :=
  (s.notices.reverse, { s with notices := [] })

/-- Add a listener: its number. -/
def subscribe (s : Session) : Nat × Session :=
  let (n, broker) := s.broker.listen
  (n, { s with broker })

/-- The events that wait for a listener. -/
def events (s : Session) (listener : Nat) : List Event × Session :=
  let (events, broker) := s.broker.follow listener
  (events, { s with broker })

end Session

end JobQueue
