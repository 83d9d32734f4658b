import JobQueue.Pool.Work

/-!
# Turns of a slot

`Pool.Turn` says what a slot does in one step of its pool, with a constructor for
each thing that can happen: its phase afterwards, and the invocations and counters
of the pool.  What becomes of the tokens follows from the phases (`Tokens.after`), and
nothing else changes: `Pool.turn_of_step` takes this out of `Pool.step`.
-/

namespace JobQueue

/-- An invocation that has ended. -/
def Invocation.concluded (i : Invocation) (ending : Ending) : Invocation :=
  { i with ending := some ending }

/-- Whether a slot makes a move without the broker. -/
def Move.isOwn : Move → Bool
  | pull _ | settle _ => false
  | _ => true

/-- The task that a slot works on. -/
def Phase.task? : Phase → Option Task
  | counted t _ | calling t | running t _ | hooking t _ | hooked t _ _ => some t
  | _ => none

/-- The tokens after a slot has gone from a phase to another. -/
def Tokens.after (k : Tokens) (old new : Phase) (calls : List Invocation) : Tokens :=
  match old, new with
  | .holding _, .counted .. => k.make
  | .calling t, .running .. => k.give t.token
  | .running _ call, _ | .hooked _ _ call, _ => k.heed call calls[call]?
  | .hooking .., .hooked .. => k.make.give k.next
  | _, _ => k

namespace Pool

variable {η : Type}

/-- The context of a delivery. -/
def contextOf (p : Pool η) (d : Delivery) (type : String) : Context where
  job := d.job
  type := type
  queue := d.message.queue
  attempt := d.attempt
  maxRetries := d.maxAttempts
  timeout := d.message.timeout.or p.settings.defaultTimeout

/-- Whether a task is what a slot of the pool makes of its delivery. -/
structure Suits (p : Pool η) (t : Task) : Prop where
  /-- The envelope is that of the message. -/
  envelope : p.codec.decode t.delivery.message.envelope = .ok t.envelope
  /-- Its tag has a handler, of the kind of the task. -/
  resolved : ∃ handler, p.registry.resolve t.envelope.type = some (t.kind, handler)
  /-- The context is that of the delivery. -/
  context : t.context = p.contextOf t.delivery t.envelope.type

/-- What a slot does in one step: its phase and its move, then its phase, the
invocations and the counters afterwards. -/
inductive Turn (p : Pool η) : Phase → Move → Phase → List Invocation → Metrics → Prop where
  /-- It has looked whether the pool stops. -/
  | checked :
    Turn p .ready .check (if p.isStopping then .gone else .pulling) p.invocations p.metrics
  /-- It gets a message. -/
  | pulled (d : Delivery) :
    Turn p .pulling (.pull (.answered (.ok (some d)))) (.holding d) p.invocations p.metrics
  /-- It gets none. -/
  | nothing : Turn p .pulling (.pull (.answered (.ok none))) .idle p.invocations p.metrics
  /-- The broker fails. -/
  | failed (e : QueueError) :
    Turn p .pulling (.pull (.answered (.error e))) .idle p.invocations p.metrics
  /-- The broker crashes it while it pulls. -/
  | pullCrashed : Turn p .pulling (.pull .crashed) .crashed p.invocations p.metrics
  /-- Its message has no envelope. -/
  | malformed {d : Delivery} {e : QueueError}
    (unread : p.codec.decode d.message.envelope = .error e) :
    Turn p (.holding d) .look (.settling d .dropped (.archive e.message) false) p.invocations
      (p.metrics.record d.message.type .dropped)
  /-- Its message has a tag without a handler. -/
  | unknown {d : Delivery} {v : Envelope} (read : p.codec.decode d.message.envelope = .ok v)
    (unresolved : p.registry.resolve v.type = none) :
    Turn p (.holding d) .look
      (.settling d .dropped (.archive (QueueError.unknownType v.type).message) false) p.invocations
      (p.metrics.record v.type .dropped)
  /-- It counts its message. -/
  | counted {t : Task} (suits : p.Suits t) (minted : t.token = p.tokens.next) :
    Turn p (.holding t.delivery) .look (.counted t p.metrics.enter.inFlight) p.invocations
      p.metrics.enter
  /-- It raises the peak. -/
  | raised (t : Task) (current : Nat) :
    Turn p (.counted t current) .raise (.calling t) p.invocations (p.metrics.raise current)
  /-- The payload of its message does not fit. -/
  | mismatched {t : Task} {e : QueueError} (unfit : t.envelope.toJob t.kind = .error e) :
    Turn p (.calling t) .call (.settling t.delivery .dropped (.archive e.message) true)
      p.invocations (p.metrics.record t.envelope.type .dropped)
  /-- It invokes the handler. -/
  | called {t : Task} {job : Job} (fits : t.envelope.toJob t.kind = .ok job) :
    Turn p (.calling t) .call (.running t p.invocations.length)
      (p.invocations ++ [{ stage := .handle, context := t.context, job }]) p.metrics
  /-- The handler succeeds. -/
  | succeeded (t : Task) (call : Nat) (ending : Ending) (now : Instant)
    (result : ending.result (t.context.timeout.getD .zero) = .ok ()) :
    Turn p (.running t call) (.finish ending now) (.settling t.delivery .succeeded .ack true)
      (p.invocations.modify call (·.concluded ending))
      (p.metrics.record t.envelope.type .succeeded)
  /-- The handler fails, and an attempt is left. -/
  | retried (t : Task) (call : Nat) (ending : Ending) (now : Instant) {e : JobError}
    (result : ending.result (t.context.timeout.getD .zero) = .error e) (retryable : e.isRetryable)
    (more : ¬ t.delivery.isLast) :
    Turn p (.running t call) (.finish ending now)
      (.settling t.delivery .retried
        (.retry (now.after (retryDelay p.settings.retryBackoff t.delivery.attempt)) e.reason) true)
      (p.invocations.modify call (·.concluded ending))
      (p.metrics.record t.envelope.type .retried)
  /-- The handler fails for good. -/
  | exhausted (t : Task) (call : Nat) (ending : Ending) (now : Instant) {e : JobError}
    (result : ending.result (t.context.timeout.getD .zero) = .error e)
    (last : e.isRetryable → t.delivery.isLast) :
    Turn p (.running t call) (.finish ending now) (.hooking t e)
      (p.invocations.modify call (·.concluded ending)) p.metrics
  /-- It cannot tell the handler. -/
  | untold {t : Task} {fault : QueueError} (e : JobError)
    (unfit : t.envelope.toJob t.kind = .error fault) :
    Turn p (.hooking t e) .callHook (.settling t.delivery .failed (.archive e.reason) true)
      p.invocations (p.metrics.record t.envelope.type .failed)
  /-- It tells the handler. -/
  | told {t : Task} {job : Job} (e : JobError) (fits : t.envelope.toJob t.kind = .ok job) :
    Turn p (.hooking t e) .callHook (.hooked t e p.invocations.length)
      (p.invocations ++ [{ stage := .failed e, context := t.context, job }]) p.metrics
  /-- The handler has learned it. -/
  | learned (t : Task) (e : JobError) (call : Nat) (ending : Ending) :
    Turn p (.hooked t e call) (.finishHook ending)
      (.settling t.delivery .failed (.archive e.reason) true)
      (p.invocations.modify call (·.concluded ending)) (p.metrics.record t.envelope.type .failed)
  /-- The broker has its verdict. -/
  | settled (d : Delivery) (outcome : Outcome) (v : Verdict) (isCounted : Bool)
    (r : Except QueueError Unit) :
    Turn p (.settling d outcome v isCounted) (.settle (.answered r)) .ready p.invocations
      (if isCounted then p.metrics.leave else p.metrics)
  /-- The broker crashes it while it settles. -/
  | settleCrashed (d : Delivery) (outcome : Outcome) (v : Verdict) (isCounted : Bool) :
    Turn p (.settling d outcome v isCounted) (.settle .crashed) .crashed p.invocations
      (if isCounted then p.metrics.leave else p.metrics)
  /-- It has waited. -/
  | woken : Turn p .idle .wake .ready p.invocations p.metrics

/-- The pool after a turn of a slot. -/
def after (p : Pool η) (slot : Nat) (f : Phase) (calls : List Invocation) (counters : Metrics) :
    Pool η :=
  { p with
    slots := p.slots.set slot f
    invocations := calls
    metrics := counters
    tokens := (p.slots[slot]?).elim p.tokens fun old => p.tokens.after old f calls }

theorem after_length (p : Pool η) {slot : Nat} {f : Phase} {calls : List Invocation}
    {counters : Metrics} (same : calls.length = p.invocations.length) :
    (p.after slot f calls counters).invocations.length = p.invocations.length := same

/-- Whether a pool is one after a turn of a slot in a phase. -/
def Turns (p : Pool η) (slot : Nat) (f : Phase) (m : Move) (p' : Pool η) : Prop :=
  ∃ f' calls counters, p.Turn f m f' calls counters ∧ p' = p.after slot f' calls counters

variable {p p' : Pool η} {slot : Nat} {m : Move} {notices : List Notice}

theorem Turns.intro {f f' : Phase} {calls : List Invocation} {counters : Metrics}
    (found : p.slots[slot]? = some f) (turn : p.Turn f m f' calls counters)
    (eq : p' =
      { p with
        slots := p.slots.set slot f'
        invocations := calls
        metrics := counters
        tokens := p.tokens.after f f' calls }) : p.Turns slot f m p' :=
  ⟨f', calls, counters, turn, by rw [eq, after, found]; rfl⟩

theorem turns_look {d : Delivery} (found : p.slots[slot]? = some (.holding d)) :
    p.Turns slot (.holding d) .look (p.look slot d).1 := by
  unfold look
  cases read : p.codec.decode d.message.envelope with
  | error e => exact .intro found (.malformed read) rfl
  | ok v =>
    cases resolved : p.registry.resolve v.type with
    | none =>
      simp only [resolved]
      exact .intro found (.unknown read resolved) rfl
    | some route =>
      obtain ⟨kind, handler⟩ := route
      simp only [resolved]
      exact .intro found
        (.counted (t := ⟨d, v, kind, _, _⟩) ⟨read, ⟨handler, resolved⟩, rfl⟩ rfl) rfl

theorem turns_call {t : Task} (found : p.slots[slot]? = some (.calling t)) :
    p.Turns slot (.calling t) .call (p.call slot t).1 := by
  unfold call
  cases fits : t.envelope.toJob t.kind with
  | error e => exact .intro found (.mismatched fits) rfl
  | ok job => exact .intro found (.called fits) rfl

theorem turns_decide {t : Task} {call : Nat} (found : p.slots[slot]? = some (.running t call))
    (ending : Ending) (now : Instant) :
    p.Turns slot (.running t call) (.finish ending now)
      ((p.conclude call ending).decide slot t
        (ending.result (t.context.timeout.getD .zero)) now).1 := by
  unfold decide
  cases result : ending.result (t.context.timeout.getD .zero) with
  | ok => exact .intro found (.succeeded t call ending now result) rfl
  | error e =>
    by_cases more : e.isRetryable && !t.delivery.isLast
    · simp only [if_pos more]
      rw [Bool.and_eq_true, Bool.not_eq_true'] at more
      exact .intro found (.retried t call ending now result more.1 (by simp [more.2])) rfl
    · simp only [if_neg more]
      exact .intro found (.exhausted t call ending now result (by simpa using more)) rfl

theorem turns_callHook {t : Task} {e : JobError}
    (found : p.slots[slot]? = some (.hooking t e)) :
    p.Turns slot (.hooking t e) .callHook (p.callHook slot t e).1 := by
  unfold callHook
  cases fits : t.envelope.toJob t.kind with
  | error fault => exact .intro found (.untold e fits) rfl
  | ok job => exact .intro found (.told e fits) rfl

theorem leave_eq (isCounted : Bool) :
    p.leave isCounted =
      { p with metrics := if isCounted then p.metrics.leave else p.metrics } := by
  cases isCounted <;> rfl

/-- Every step of a pool is a turn of a slot. -/
theorem turn_of_step (h : p.step slot m = some (p', notices)) :
    ∃ f, p.slots[slot]? = some f ∧ p.Turns slot f m p' := by
  unfold step at h
  split at h
  · next found =>
    cases h
    exact ⟨_, found, .intro found .checked rfl⟩
  · next d found =>
    cases h
    exact ⟨_, found, .intro found (.pulled d) rfl⟩
  · next found =>
    cases h
    exact ⟨_, found, .intro found .nothing rfl⟩
  · next e found =>
    cases h
    exact ⟨_, found, .intro found (.failed e) rfl⟩
  · next found =>
    cases h
    exact ⟨_, found, .intro found .pullCrashed rfl⟩
  · next d found =>
    obtain rfl := congrArg Prod.fst (Option.some.inj h)
    exact ⟨_, found, turns_look found⟩
  · next t current found =>
    cases h
    exact ⟨_, found, .intro found (.raised t current) rfl⟩
  · next t found =>
    obtain rfl := congrArg Prod.fst (Option.some.inj h)
    exact ⟨_, found, turns_call found⟩
  · next t call ending now found =>
    split at h
    · cases h
    · obtain rfl := congrArg Prod.fst (Option.some.inj h)
      exact ⟨_, found, turns_decide found _ now⟩
  · next t e found =>
    obtain rfl := congrArg Prod.fst (Option.some.inj h)
    exact ⟨_, found, turns_callHook found⟩
  · next t e call ending found =>
    cases h
    exact ⟨_, found, .intro found (.learned t e call ending) rfl⟩
  · next d outcome v isCounted r found =>
    rw [leave_eq] at h
    cases h
    exact ⟨_, found, .intro found (.settled d outcome v isCounted r) rfl⟩
  · next d outcome v isCounted found =>
    rw [leave_eq] at h
    cases h
    exact ⟨_, found, .intro found (.settleCrashed d outcome v isCounted) rfl⟩
  · next found =>
    cases h
    exact ⟨_, found, .intro found .woken rfl⟩
  · cases h

/-- A slot that pulls makes a step with the reply of the broker. -/
theorem step_of_pullFrom {b b' : Broker} {draw : Nat → Nat} {lease : LeaseToken} {now : Instant}
    (h : p.pullFrom slot draw lease now b = some (p', b', notices)) :
    p.step slot (.pull (b.dequeue (p.schedule.round draw) lease now).1) = some (p', notices) ∧
      b' = (b.dequeue (p.schedule.round draw) lease now).2 := by
  unfold pullFrom at h
  obtain ⟨⟨_, _⟩, stepped, eq⟩ := Option.map_eq_some_iff.mp h
  cases eq
  exact ⟨stepped, rfl⟩

/-- A slot that settles its message makes a step with the reply of the broker. -/
theorem step_of_settleWith {b b' : Broker} {d : Delivery} {outcome : Outcome} {v : Verdict}
    {isCounted : Bool} {now : Instant}
    (found : p.slots[slot]? = some (.settling d outcome v isCounted))
    (h : p.settleWith slot now b = some (p', b', notices)) :
    p.step slot (.settle (b.settle d v now).1) = some (p', notices) ∧
      b' = (b.settle d v now).2 := by
  unfold settleWith at h
  rw [found] at h
  obtain ⟨⟨_, _⟩, stepped, eq⟩ := Option.map_eq_some_iff.mp h
  cases eq
  exact ⟨stepped, rfl⟩

end Pool

end JobQueue
