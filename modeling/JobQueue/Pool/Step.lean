import JobQueue.Broker
import JobQueue.Notice
import JobQueue.Pool.Slot
import JobQueue.Pool.Worker
import JobQueue.Schedule
import JobQueue.Time.Backoff

/-!
# Pools of workers

A pool is a number of slots that share counters and a registry of handlers.  It
moves in small steps, each of one slot: `Pool.step` gives the pool after a move
of a slot, or nothing where the slot cannot make that move.  What the
surroundings decide is part of the move: the replies of the broker, how an
invocation ends, and the time.

A slot pulls a message and looks at its envelope; a message that has none, or
whose tag has no handler, or whose payload does not fit, is dropped.  Otherwise
its handler is invoked once.  If it succeeds, the message is done; if it fails
and an attempt is left, the message waits for it; else the handler is told, on a
context of its own, that the job failed for good, and the message is given up.
Each message that is pulled is settled with one verdict.

A stop lets every slot finish its message.  Once it is over, all contexts of the
pool are cancelled; before that, only the context of an invocation that was cut
off is.
-/

namespace JobQueue

/-- A pool of workers. -/
structure Pool (η : Type) where
  /-- What the pool runs with. -/
  settings : Settings
  /-- How the bytes of envelopes are arranged. -/
  codec : Codec
  /-- The handlers. -/
  registry : Registry η
  /-- The slots. -/
  slots : List Phase
  /-- The counters. -/
  metrics : Metrics := {}
  /-- The invocations, in the order in which they began. -/
  invocations : List Invocation := []
  /-- The tokens of their contexts. -/
  tokens : Tokens := {}
  /-- Whether the slots are to finish. -/
  isStopping : Bool := false
  /-- Whether the stop is over. -/
  isOver : Bool := false

/-- What a slot does next. -/
inductive Move where
  /-- It looks whether the pool stops. -/
  | check
  /-- The broker replies to its pull. -/
  | pull (reply : Reply (Option Delivery))
  /-- It looks at its message. -/
  | look
  /-- It raises the peak. -/
  | raise
  /-- It invokes the handler. -/
  | call
  /-- The handler ends. -/
  | finish (ending : Ending) (now : Instant)
  /-- It tells the handler that the job failed for good. -/
  | callHook
  /-- The handler has learned it. -/
  | finishHook (ending : Ending)
  /-- The broker replies to its verdict. -/
  | settle (reply : Reply Unit)
  /-- It has waited. -/
  | wake

namespace Pool

variable {η : Type}

/-- The order in which the queues are looked through. -/
def schedule (p : Pool η) : Schedule := .ofWeights p.settings.queues p.settings.strictPriority

/-- Start a pool. -/
def start (w : Worker η) : Pool η × List Notice :=
  let empty : Notice :=
    { level := .warn
      message := "starting worker with no registered job types; every message will be dropped" }
  let started : Notice :=
    { level := .info, message := "worker started"
      fields := [("concurrency", toString w.settings.concurrency.toNat)] }
  ({ settings := w.settings, codec := w.codec, registry := w.registry
     slots := List.replicate w.settings.concurrency.toNat .ready },
    (if w.registry.isEmpty then [empty] else []) ++ [started])

/-- The pool with a slot in another phase. -/
def put (p : Pool η) (slot : Nat) (phase : Phase) : Pool η :=
  { p with slots := p.slots.set slot phase }

/-- A span in whole milliseconds, as notices tell it. -/
def millisText (d : Span) : String := toString (d.millis % 18446744073709551616)

/-- Give up a message that cannot be handled. -/
def drop (p : Pool η) (slot : Nat) (d : Delivery) (type : String) (e : QueueError)
    (isCounted : Bool) : Pool η × List Notice :=
  ({ p.put slot (.settling d .dropped (.archive e.message) isCounted) with
      metrics := p.metrics.record type .dropped },
    [{ level := .error, message := "dropping undeliverable message"
       fields := [("error", e.message)] }])

/-- Look at a message: drop it, or count it as being handled. -/
def look (p : Pool η) (slot : Nat) (d : Delivery) : Pool η × List Notice :=
  match p.codec.decode d.message.envelope with
  | .error e => p.drop slot d d.message.type e false
  | .ok envelope =>
    match p.registry.resolve envelope.type with
    | none => p.drop slot d envelope.type (.unknownType envelope.type) false
    | some (kind, _) =>
      let context : Context :=
        { job := d.job, type := envelope.type, queue := d.message.queue, attempt := d.attempt,
          maxRetries := d.maxAttempts, timeout := d.message.timeout.or p.settings.defaultTimeout }
      let metrics := p.metrics.enter
      let t : Task := { delivery := d, envelope, kind, context, token := p.tokens.next }
      ({ p.put slot (.counted t metrics.inFlight) with metrics, tokens := p.tokens.make }, [])

/-- Begin an invocation.  What learns of a failure gets a context of its own, with a new
token. -/
def invoke (p : Pool η) (slot : Nat) (stage : Stage) (t : Task) (job : Job)
    (phase : Nat → Phase) : Pool η :=
  { p.put slot (phase p.invocations.length) with
    invocations := p.invocations ++ [{ stage, context := t.context, job }]
    tokens :=
      match stage with
      | .handle => p.tokens.give t.token
      | .failed _ => p.tokens.make.give p.tokens.next }

/-- Invoke the handler with the job of the message, or drop the message if the
payload does not fit. -/
def call (p : Pool η) (slot : Nat) (t : Task) : Pool η × List Notice :=
  match t.envelope.toJob t.kind with
  | .error e => p.drop slot t.delivery t.envelope.type e true
  | .ok job => (p.invoke slot .handle t job (.running t), [])

/-- End an invocation. -/
def conclude (p : Pool η) (call : Nat) (ending : Ending) : Pool η :=
  let invocations := p.invocations.modify call fun i => { i with ending := some ending }
  { p with invocations, tokens := p.tokens.heed call invocations[call]? }

/-- Decide about a message by what its handler says. -/
def decide (p : Pool η) (slot : Nat) (t : Task) (result : Except JobError Unit) (now : Instant) :
    Pool η × List Notice :=
  match result with
  | .ok () =>
    ({ p.put slot (.settling t.delivery .succeeded .ack true) with
        metrics := p.metrics.record t.envelope.type .succeeded }, [])
  | .error e =>
    if e.isRetryable && !t.delivery.isLast then
      let delay := retryDelay p.settings.retryBackoff t.delivery.attempt
      ({ p.put slot (.settling t.delivery .retried (.retry (now.after delay) e.reason) true) with
          metrics := p.metrics.record t.envelope.type .retried },
        [{ level := .warn, message := "job failed, scheduling retry"
           fields := [("error", e.message), ("retry_in_ms", millisText delay)] }])
    else
      (p.put slot (.hooking t e),
        [{ level := .error, message := "job failed permanently"
           fields :=
            [("error", e.message), ("max_retries", toString t.delivery.maxAttempts.toNat)] }])

/-- How long the handler may take to learn that a job failed for good. -/
def hookLimit (p : Pool η) (t : Task) : Span :=
  t.context.timeout.getD p.settings.shutdownTimeout

/-- How long the invocation that a slot waits for may take, if there is a limit. -/
def limit? (p : Pool η) : Phase → Option Span
  | .running t _ => t.context.timeout
  | .hooked t _ _ => some (p.hookLimit t)
  | _ => none

/-- Give up a message whose handler failed for good. -/
def giveUpMessage (p : Pool η) (slot : Nat) (t : Task) (e : JobError) : Pool η :=
  { p.put slot (.settling t.delivery .failed (.archive e.reason) true) with
    metrics := p.metrics.record t.envelope.type .failed }

/-- Tell the handler that the job failed for good. -/
def callHook (p : Pool η) (slot : Nat) (t : Task) (e : JobError) : Pool η × List Notice :=
  match t.envelope.toJob t.kind with
  | .error fault =>
    (p.giveUpMessage slot t e,
      [{ level := .error, message := "failed hook could not decode job"
         fields := [("error", fault.message)] }])
  | .ok job => (p.invoke slot (.failed e) t job (.hooked t e), [])

/-- What there is to report about a handler that has learned of a failure. -/
def hookNotices (limit : Span) : Ending → List Notice
  | .returned _ => []
  | .panicked text =>
    [{ level := .error, message := "failed hook panicked"
       fields := [("panic", Ending.panicText text)] }]
  | .timedOut =>
    [{ level := .error, message := "failed hook timed out"
       fields := [("timeout_ms", millisText limit)] }]

/-- What there is to report about a settled message. -/
def settledNotices (outcome : Outcome) (r : Except QueueError Unit) : List Notice :=
  let failure (message : String) (e : QueueError) : List Notice :=
    [{ level := .error, message, fields := [("error", e.message)] }]
  match outcome, r with
  | .dropped, .ok () => [{ level := .info, message := "message archived" }]
  | _, .ok () => []
  | .succeeded, .error e => failure "failed to ack job" e
  | .retried, .error e => failure "failed to schedule retry" e
  | .failed, .error e => failure "failed to archive job" e
  | .dropped, .error e => failure "failed to archive dropped message" e

/-- The counters after a slot is done with its message. -/
def leave (p : Pool η) (isCounted : Bool) : Pool η :=
  if isCounted then { p with metrics := p.metrics.leave } else p

/-- The pool after a move of a slot, with what there is to report, if the slot
can make that move. -/
def step (p : Pool η) (slot : Nat) (m : Move) : Option (Pool η × List Notice) :=
  match p.slots[slot]?, m with
  | some .ready, .check => some (p.put slot (if p.isStopping then .gone else .pulling), [])
  | some .pulling, .pull (.answered (.ok (some d))) => some (p.put slot (.holding d), [])
  | some .pulling, .pull (.answered (.ok none)) => some (p.put slot .idle, [])
  | some .pulling, .pull (.answered (.error e)) =>
    some (p.put slot .idle,
      [{ level := .error, message := "failed to pull from broker"
         fields := [("error", e.message)] }])
  | some .pulling, .pull .crashed => some (p.put slot .crashed, [])
  | some (.holding d), .look => some (p.look slot d)
  | some (.counted t current), .raise =>
    some ({ p.put slot (.calling t) with metrics := p.metrics.raise current }, [])
  | some (.calling t), .call => some (p.call slot t)
  | some (.running t call), .finish ending now =>
    match t.context.timeout, ending with
    | none, .timedOut => none
    | limit, ending =>
      some ((p.conclude call ending).decide slot t (ending.result (limit.getD .zero)) now)
  | some (.hooking t e), .callHook => some (p.callHook slot t e)
  | some (.hooked t e call), .finishHook ending =>
    some ((p.conclude call ending).giveUpMessage slot t e, hookNotices (p.hookLimit t) ending)
  | some (.settling _ outcome _ isCounted), .settle (.answered r) =>
    some ((p.put slot .ready).leave isCounted, settledNotices outcome r)
  | some (.settling _ _ _ isCounted), .settle .crashed =>
    some ((p.put slot .crashed).leave isCounted, [])
  | some .idle, .wake => some (p.put slot .ready, [])
  | _, _ => none

/-! ## Contexts -/

/-- Whether a token is cancelled, by itself or with all others. -/
def cancels (p : Pool η) (token : Token) : Bool :=
  p.isOver || p.tokens.cancelled.contains token

/-- Whether the context of an invocation is cancelled. -/
def isCancelled (p : Pool η) (call : Nat) : Bool := (p.tokens.ofCalls[call]?).any p.cancels

/-! ## Stopping -/

/-- Ask the slots to finish. -/
def requestStop (p : Pool η) : Pool η × List Notice :=
  ({ p with isStopping := true },
    [{ level := .info, message := "stopping worker"
       fields :=
        [("in_flight", toString p.metrics.inFlight),
         ("timeout_ms", millisText p.settings.shutdownTimeout)] }])

/-- The number of slots that have not left their work. -/
def unfinished (p : Pool η) : Nat := (p.slots.filter fun f => !f.isOver).length

/-- End a stop that leaves slots behind. -/
def stopOver (p : Pool η) (abandoned : Nat) : Pool η × List Notice :=
  ({ p with isOver := true },
    [{ level := .info, message := "worker stopped"
       fields := [("abandoned", toString abandoned)] }])

/-- End a stop because all slots have left their work. -/
def join? (p : Pool η) : Option (Pool η × List Notice) :=
  if p.unfinished = 0 then
    let (p', notices) := p.stopOver 0
    let crashes := p.slots.filter fun f => f matches .crashed
    let crashed := crashes.map fun _ => { level := .error, message := "worker slot crashed" }
    some (p', crashed ++ notices)
  else none

/-- End a stop because its time is over: the number of slots left behind, too. -/
def abandon (p : Pool η) : Nat × Pool η × List Notice :=
  let n := p.unfinished
  let (p', notices) := p.stopOver n
  (n, p',
    { level := .warn, message := "abandoning in-flight handlers"
      fields := [("error", (QueueError.shutdownTimeout n).message)] } :: notices)

end Pool

end JobQueue
