import JobQueue.Proofs.Pool.Run

/-!
# What a worker makes of a message

`Worker.take` is all that a worker makes of a message before anything is invoked: the tag
of its envelope, the handler for the tag and the job for that handler, or what is wrong
with the message.  No attempt can mend that (`Worker.isTerminal_of_take`).

A pool finds it out step by step.  What a slot has found out so far is true
(`Pool.Run.knows`); so it drops a message for what is wrong with it, and invokes a handler
with what the worker takes out of it (`Pool.Run.take_of_fits`).
-/

namespace JobQueue

variable {η : Type}

namespace Worker

/-- What a worker makes of a message: the tag of its envelope, the handler for the tag and
its job, if nothing is wrong with it. -/
def take (w : Worker η) (m : Message) : Except QueueError (String × η × Job) :=
  match w.codec.decode m.envelope with
  | .error e => .error e
  | .ok v =>
    match w.registry.resolve v.type with
    | none => .error (.unknownType v.type)
    | some (kind, handler) => (v.toJob kind).map fun job => (v.type, handler, job)

/-- Whether something is wrong with a message. -/
def refuses (w : Worker η) (d : Delivery) : Bool :=
  match w.take d.message with
  | .error _ => true
  | .ok _ => false

/-- Whether a message is an envelope for a handler, with a payload that does not fit. -/
def mismatches (w : Worker η) (d : Delivery) : Bool :=
  match w.take d.message with
  | .error (.payloadMismatch _ _) => true
  | _ => false

/-- Whether a message is an envelope for a handler. -/
def routes (w : Worker η) (d : Delivery) : Bool := !w.refuses d || w.mismatches d

/-- What an attempt at a delivery is told. -/
def contextOf (w : Worker η) (d : Delivery) (tag : String) : Context :=
  (Pool.start w).1.contextOf d tag

/-- How long an attempt at a delivery may take. -/
def limit? (w : Worker η) (d : Delivery) : Option Span :=
  d.message.timeout.or w.settings.defaultTimeout

/-- The invocation of a part of the handler for a delivery. -/
def invocation (w : Worker η) (d : Delivery) (tag : String) (job : Job) (stage : Stage) :
    Invocation :=
  { stage, context := w.contextOf d tag, job }

end Worker

/-- The handler of an invocation, found by the tag in its context. -/
def Pool.handler? (p : Pool η) (i : Invocation) : Option η :=
  (p.registry.resolve i.context.type).map Prod.snd

/-! ## What is wrong with a message -/

theorem Codec.eq_of_decode {codec : Codec} {b : Bytes} {e : QueueError}
    (unread : codec.decode b = .error e) : ∃ reason, e = .envelopeMalformed reason := by
  have ofBytes {b : Bytes} (unread : Envelope.ofBytes b = .error e) :
      ∃ reason, e = .envelopeMalformed reason := by
    unfold Envelope.ofBytes at unread
    split at unread <;> cases unread
    exact ⟨_, rfl⟩
  cases codec with
  | json => exact ofBytes unread
  | reversed => exact ofBytes unread

theorem Envelope.eq_of_toJob {v : Envelope} {kind : JobKind} {e : QueueError}
    (unfit : v.toJob kind = .error e) : ∃ reason, e = .payloadMismatch v.type reason := by
  unfold toJob at unfit
  split at unfit <;> cases unfit
  exact ⟨_, rfl⟩

namespace Worker

variable {w : Worker η} {d : Delivery} {m : Message} {v : Envelope} {e : QueueError}
  {kind : JobKind} {handler : η}

theorem take_of_unread (unread : w.codec.decode m.envelope = .error e) : w.take m = .error e := by
  rw [take, unread]

theorem take_of_unresolved (read : w.codec.decode m.envelope = .ok v)
    (unresolved : w.registry.resolve v.type = none) : w.take m = .error (.unknownType v.type) := by
  simp only [take, read, unresolved]

theorem take_of_resolved (read : w.codec.decode m.envelope = .ok v)
    (resolved : w.registry.resolve v.type = some (kind, handler)) :
    w.take m = (v.toJob kind).map fun job => (v.type, handler, job) := by
  simp only [take, read, resolved]

/-- What can be wrong with a message. -/
theorem take_eq_error (fault : w.take m = .error e) :
    (∃ reason, e = .envelopeMalformed reason) ∨ (∃ type, e = .unknownType type) ∨
      ∃ type reason, e = .payloadMismatch type reason := by
  unfold take at fault
  split at fault
  · next unread =>
    cases fault
    exact .inl (Codec.eq_of_decode unread)
  · next v read =>
    split at fault
    · cases fault
      exact .inr (.inl ⟨_, rfl⟩)
    · next kind handler resolved =>
      cases fits : v.toJob kind with
      | ok job =>
        rw [fits] at fault
        cases fault
      | error e' =>
        rw [fits] at fault
        cases fault
        obtain ⟨reason, rfl⟩ := Envelope.eq_of_toJob fits
        exact .inr (.inr ⟨_, _, rfl⟩)

/-- No attempt can mend what is wrong with a message. -/
theorem isTerminal_of_take (fault : w.take m = .error e) : e.isTerminal := by
  rcases take_eq_error fault with ⟨_, rfl⟩ | ⟨_, rfl⟩ | ⟨_, _, rfl⟩ <;> rfl

theorem refuses_of_take (fault : w.take d.message = .error e) : w.refuses d = true := by
  rw [refuses, fault]

/-- A message has a route or something is wrong with it, and both only where its payload does
not fit. -/
theorem routes_refuses (w : Worker η) (d : Delivery) :
    (w.routes d).toNat + (w.refuses d).toNat = 1 + (w.mismatches d).toNat := by
  unfold routes refuses mismatches
  cases w.take d.message with
  | ok => rfl
  | error e => cases e <;> rfl

end Worker

/-! ## What slots know -/

namespace Pool

variable {w : Worker η} {deeds : List (Deed η)} {p q : Pool η} {f f' : Phase}
  {m : Move} {calls : List Invocation} {counters : Metrics} {t : Task}

theorem Suits.of_eq (suits : p.Suits t) (codec : q.codec = p.codec)
    (registry : q.registry = p.registry) (settings : q.settings = p.settings) : q.Suits t where
  envelope := by rw [codec, suits.envelope]
  resolved := by
    rw [registry]
    exact suits.resolved
  context := by
    rw [contextOf, settings]
    exact suits.context

/-- Whether what a slot has found out about its message is true. -/
def Knows (p : Pool η) : Phase → Prop
  | .counted t _ | .calling t => p.Suits t
  | .running t _ | .hooking t _ | .hooked t _ _ =>
    p.Suits t ∧ ∃ job, t.envelope.toJob t.kind = .ok job
  | _ => True

theorem Knows.of_eq (knows : p.Knows f) (codec : q.codec = p.codec)
    (registry : q.registry = p.registry) (settings : q.settings = p.settings) : q.Knows f := by
  cases f with
  | counted => exact Suits.of_eq knows codec registry settings
  | calling => exact Suits.of_eq knows codec registry settings
  | running => exact ⟨knows.1.of_eq codec registry settings, knows.2⟩
  | hooking => exact ⟨knows.1.of_eq codec registry settings, knows.2⟩
  | hooked => exact ⟨knows.1.of_eq codec registry settings, knows.2⟩
  | _ => trivial

/-- What a slot finds out in a turn is true if what it knew before is. -/
theorem Turn.knows (turn : p.Turn f m f' calls counters) (knows : p.Knows f) : p.Knows f' := by
  cases turn with
  | checked => split <;> trivial
  | counted suits => exact suits
  | raised => exact knows
  | called fits => exact ⟨knows, _, fits⟩
  | exhausted => exact knows
  | told => exact knows
  | _ => trivial

theorem Run.knows (run : Run w deeds p) : ∀ f ∈ p.slots, p.Knows f := by
  induction run using Run.induction with
  | start =>
    intro f mem
    rw [eq_ready_of_mem_start mem]
    trivial
  | @turned deeds p slot f m f' calls counters run found turn later ih =>
    intro g mem
    refine Knows.of_eq (p := p) ?_ rfl rfl rfl
    rcases List.mem_or_eq_of_mem_set mem with mem | rfl
    · exact ih g mem
    · exact turn.knows (ih f (List.mem_of_getElem? found))
  | tuned isStopping isOver run later ih =>
    intro f mem
    exact (ih f mem).of_eq rfl rfl rfl

section

variable {d : Delivery} {v : Envelope} {e : QueueError}

theorem Run.take_of_malformed (run : Run w deeds p)
    (unread : p.codec.decode d.message.envelope = .error e) :
    w.take d.message = .error e ∧ w.routes d = false := by
  rw [run.start_eq.1] at unread
  have fault := Worker.take_of_unread unread
  obtain ⟨reason, rfl⟩ := Codec.eq_of_decode unread
  exact ⟨fault, by simp only [Worker.routes, Worker.refuses, Worker.mismatches, fault]; rfl⟩

theorem Run.take_of_unknown (run : Run w deeds p)
    (read : p.codec.decode d.message.envelope = .ok v)
    (unresolved : p.registry.resolve v.type = none) :
    w.take d.message = .error (.unknownType v.type) ∧ w.routes d = false := by
  rw [run.start_eq.1] at read
  rw [run.start_eq.2.1] at unresolved
  have fault := Worker.take_of_unresolved read unresolved
  exact ⟨fault, by simp only [Worker.routes, Worker.refuses, Worker.mismatches, fault]; rfl⟩

/-- The worker takes out of a message what its slot does. -/
theorem Run.take_of_suits (run : Run w deeds p) (suits : p.Suits t) :
    ∃ handler, p.registry.resolve t.envelope.type = some (t.kind, handler) ∧
      w.take t.delivery.message =
        (t.envelope.toJob t.kind).map fun job => (t.envelope.type, handler, job) := by
  obtain ⟨handler, resolved⟩ := suits.resolved
  have read := suits.envelope
  refine ⟨handler, resolved, ?_⟩
  rw [run.start_eq.1] at read
  rw [run.start_eq.2.1] at resolved
  exact Worker.take_of_resolved read resolved

theorem Run.take_of_mismatched (run : Run w deeds p) (suits : p.Suits t)
    (unfit : t.envelope.toJob t.kind = .error e) : w.take t.delivery.message = .error e := by
  obtain ⟨handler, -, taken⟩ := run.take_of_suits suits
  rw [taken, unfit]
  rfl

theorem Run.take_of_fits (run : Run w deeds p) (suits : p.Suits t) {job : Job}
    (fits : t.envelope.toJob t.kind = .ok job) :
    ∃ handler, w.take t.delivery.message = .ok (t.envelope.type, handler, job) ∧
      ∀ stage, p.handler? (w.invocation t.delivery t.envelope.type job stage) = some handler := by
  obtain ⟨handler, resolved, taken⟩ := run.take_of_suits suits
  refine ⟨handler, by rw [taken, fits]; rfl, fun stage => ?_⟩
  show (p.registry.resolve t.envelope.type).map Prod.snd = some handler
  rw [resolved]
  rfl

theorem Run.refuses_of_fits (run : Run w deeds p) (suits : p.Suits t) {job : Job}
    (fits : t.envelope.toJob t.kind = .ok job) : w.refuses t.delivery = false := by
  obtain ⟨handler, taken, -⟩ := run.take_of_fits suits fits
  rw [Worker.refuses, taken]

theorem Run.routes_of_suits (run : Run w deeds p) (suits : p.Suits t) :
    w.routes t.delivery = true := by
  cases fits : t.envelope.toJob t.kind with
  | ok job => rw [Worker.routes, run.refuses_of_fits suits fits, Bool.not_false, Bool.true_or]
  | error e =>
    have fault := run.take_of_mismatched suits fits
    obtain ⟨reason, rfl⟩ := Envelope.eq_of_toJob fits
    have unfit : w.mismatches t.delivery = true := by rw [Worker.mismatches, fault]
    rw [Worker.routes, unfit, Bool.or_true]

/-- A slot tells the handler what the worker says. -/
theorem Run.context_eq (run : Run w deeds p) (suits : p.Suits t) :
    t.context = w.contextOf t.delivery t.envelope.type := by
  rw [suits.context, contextOf, run.start_eq.2.2]
  rfl

theorem Run.invocation_eq (run : Run w deeds p) (suits : p.Suits t) (job : Job) (stage : Stage) :
    ({ stage, context := t.context, job } : Invocation) =
      w.invocation t.delivery t.envelope.type job stage := by
  rw [run.context_eq suits]
  rfl

end

end Pool

end JobQueue
