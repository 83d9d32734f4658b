import JobQueue.Dispatch
import JobQueue.Proofs.Codec.Payload
import JobQueue.Proofs.Site.Works
import Mathlib.Logic.Relation

/-!
# What handlers are told

A job that a client dispatches comes to its handler unchanged.  The message of the
job carries an envelope from which the job comes back (`Message.Carries`), and
whatever a slot makes of a delivery of it is that job, for the handler of its tag, in
a context that tells of the delivery (`Pool.Suits.of_carries`).

`Site.asked` lists the invocations for a message without how they ended.  A step
leaves this list as it is or appends to it the one invocation that a slot begins in
its turn (`Site.Change.asked`).  At that moment the slot is where its delivery says
(`Site.Works`), which tells the attempt, and the pool and the delivery tell the rest; so
each invocation is what its attempt calls for (`Site.Told`).

`Site.Run.faithful` is the result.  It holds for jobs of all kinds but those with pairs
as keys, which have no text.
-/

namespace JobQueue

open History

/-! ## Messages that carry a job -/

/-- Whether a message carries a job as it was submitted. -/
structure Message.Carries (m : Message) (j : Job) (sub : Submission) : Prop where
  /-- The envelope is that of the job, in JSON. -/
  envelope : ∃ e, Codec.json.decode m.envelope = .ok e ∧ e.type = j.tag ∧ e.toJob j.kind = .ok j
  /-- The queue is the one that was chosen. -/
  queue : m.queue = sub.queue
  /-- So are the attempts. -/
  budget : m.budget = sub.maxRetries
  /-- So is the time for an attempt. -/
  timeout : m.timeout = sub.timeout

/-- A job is made into a message that carries it. -/
theorem Message.exists_ofJob {j : Job} (record : j.kind ≠ .keyed) (choices : List Choice)
    (now : Instant) : ∃ m, ofJob .json choices j now = .ok m ∧
      m.Carries j (Submission.resolve choices j now) := by
  obtain ⟨e, -, type, taken, written, read⟩ := Codec.exists_encodeJob record
  refine ⟨_, ofPosting_of_ok written, ⟨e, read, type, taken⟩, rfl, ?_, rfl⟩
  exact if_neg (Submission.maxRetries_resolve_ne choices j now)

/-- The kind of a tag is that of the jobs with this tag. -/
theorem Registry.kind_of_resolve {η : Type} {r : Registry η} {j : Job} {route : JobKind × η}
    (resolved : r.resolve j.tag = some route) : route.1 = j.kind :=
  JobKind.tag_inj.mp (tag_of_resolve resolved)

namespace Pool

variable {η : Type} {p : Pool η} {j : Job} {sub : Submission}

/-- A pool with a handler for the tag of a job can handle a message that carries it. -/
theorem handles_of_carries {m : Message} (carries : m.Carries j sub) (codec : p.codec = .json)
    (registered : p.registry.isRegistered j.tag) : p.Handles m := by
  obtain ⟨e, read, type, taken⟩ := carries.envelope
  obtain ⟨route, resolved⟩ := Option.isSome_iff_exists.mp registered
  have kind := Registry.kind_of_resolve resolved
  refine ⟨e, route.1, route.2, j, codec ▸ read, type ▸ resolved, ?_⟩
  rw [kind]
  exact taken

/-- What a slot makes of a delivery of a message that carries a job is that job, for
the handler of its tag, in the context of the delivery. -/
theorem Suits.of_carries {t : Task} (suits : p.Suits t) (codec : p.codec = .json)
    (carries : t.delivery.message.Carries j sub) :
    t.envelope.toJob t.kind = .ok j ∧ t.context = p.contextOf t.delivery j.tag ∧
      ∃ handler, p.registry.resolve j.tag = some (j.kind, handler) := by
  obtain ⟨e, read, type, taken⟩ := carries.envelope
  have envelope := suits.envelope
  rw [codec, read] at envelope
  cases envelope
  obtain ⟨handler, resolved⟩ := suits.resolved
  have context := suits.context
  rw [type] at resolved context
  have kind : t.kind = j.kind := Registry.kind_of_resolve resolved
  rw [kind] at resolved ⊢
  exact ⟨taken, context, handler, resolved⟩

end Pool

/-! ## Invocations that begin -/

/-- With the invocation that a slot begins in attempt `n`, the job has been done `n`
times. -/
theorem Doing.length_handlings {N n i : Nat} {f : Phase} {calls : Calls}
    (doing : Doing N n i f calls) {stage : Stage} {t : Task} {job : Job}
    (asks : Pool.Asks f stage t job) (place : Place) :
    (handlingsIn (calls ++ [(place, { stage, context := t.context, job })])).length = n ∧
      1 ≤ n ∧ n ≤ N := by
  cases asks with
  | handle =>
    cases doing with
    | calling before =>
      rw [handlingsIn_concat calls rfl, List.length_append, before.tries.length_handlings]
      exact ⟨before.count, before.count ▸ Nat.succ_pos _, before.le⟩
  | hook =>
    cases doing with
    | hooking fails =>
      obtain ⟨tries, -, -, before, -⟩ := id fails
      rw [handlingsIn_concat_hook _ rfl]
      exact ⟨fails.length_handlings.1, before.count ▸ Nat.succ_pos _, fails.length_handlings.2⟩

namespace Site

variable {η : Type} {s s' : Site η} {id : JobId} {m : Message} {j : Job} {sub : Submission}

/-- An invocation without how it ended. -/
def begun (c : Place × Invocation) : Place × Invocation := (c.1, { c.2 with ending := none })

/-- The invocations for a message in the order in which they began, without how they
ended. -/
def asked (s : Site η) (id : JobId) : Calls := (s.callsOf id).map begun

theorem length_handlings_begun (calls : Calls) :
    (handlingsIn (calls.map begun)).length = (handlingsIn calls).length := by
  induction calls with
  | nil => rfl
  | cons c rest ih =>
    by_cases stage : c.2.stage = .handle <;> simpa [handlingsIn, begun, stage] using ih

/-- A turn leaves what was asked for a message, or the slot asks for one thing more. -/
theorem asked_turned (sound : s.Sound) {i slot : Nat} {p : Pool η} (found : s.pools[i]? = some p)
    {f f' : Phase} {move : Move} {calls : List Invocation} {counters : Metrics}
    (turn : p.Turn f move f' calls counters) (id : JobId) :
    (s.turned i p (p.after slot f' calls counters)).asked id = s.asked id ∨
      ∃ stage t job, Pool.Asks f stage t job ∧ t.context.job = id ∧
        (s.turned i p (p.after slot f' calls counters)).asked id =
          s.asked id ++
            [((i, p.invocations.length), { stage, context := t.context, job })] := by
  unfold asked
  cases turn.effect with
  | same => exact .inl (by rw [callsOf_turned_same found])
  | ended _ call ending =>
    left
    rw [callsOf_turned_ended found, List.map_map]
    refine List.map_congr_left ?_
    intro c mem
    by_cases eq : c.1 = (i, call) <;> simp [eq, begun, Invocation.concluded]
  | begun t stage job asks =>
    rw [callsOf_turned_begun sound found, List.map_append]
    by_cases about : t.context.job = id
    · exact .inr ⟨stage, t, job, asks, about, by rw [if_pos about]; rfl⟩
    · exact .inl (by rw [if_neg about]; simp)

/-- A step leaves what was asked for a message, or a slot asks for one thing more. -/
theorem Change.asked (change : Change s s') (sound : s.Sound) (id : JobId) :
    s'.asked id = s.asked id ∨
      ∃ (i : Nat) (p : Pool η) (slot : Nat) (f : Phase) (stage : Stage) (t : Task) (job : Job)
        (n : Nat), s.pools[i]? = some p ∧ p.slots[slot]? = some f ∧
          Pool.Asks f stage t job ∧ t.context.job = id ∧
            s'.asked id = s.asked id ++ [((i, n), { stage, context := t.context, job })] := by
  have same : s'.callsOf id = s.callsOf id → s'.asked id = s.asked id := by
    intro eq
    rw [Site.asked, eq]
    rfl
  cases change with
  | opened w => exact .inl (same (callsOf_opened w id))
  | tuned found agrees => exact .inl (same (callsOf_put found agrees.invocations id))
  | client => exact .inl (same rfl)
  | pulled found => exact .inl (same (callsOf_put_served found _ _ _ _ id))
  | settled found => exact .inl (same (callsOf_put_served found _ _ _ _ id))
  | @moved i p found slot f f' move calls counters phase turn own =>
    rcases asked_turned sound found turn id with kept | ⟨stage, t, job, asks, about, eq⟩
    · exact .inl kept
    · exact .inr ⟨i, p, slot, f, stage, t, job, _, found, phase, asks, about, eq⟩

/-! ## What an attempt calls for -/

/-- Whether every pool that pulls from a queue reads JSON and has a handler for a
job. -/
def Serves (s : Site η) (queue : String) (j : Job) : Prop :=
  ∀ p ∈ s.pools, queue ∈ p.schedule.names → p.codec = .json ∧ p.registry.isRegistered j.tag

/-- Whether an invocation is what attempt `n` of a job calls for: it is made by a pool
whose handler for the tag in its context is the one for that kind of job, it gets the
job itself, and its context tells of the attempt and of what was submitted. -/
def Told (s : Site η) (id : JobId) (sub : Submission) (j : Job) (n : Nat)
    (c : Place × Invocation) : Prop :=
  ∃ p handler, s.pools[c.1.1]? = some p ∧
    p.registry.resolve c.2.context.type = some (j.kind, handler) ∧ c.2.job = j ∧
    c.2.context =
      { job := id, type := j.tag, queue := sub.queue, attempt := UInt32.ofNat n
        maxRetries := sub.maxRetries, timeout := sub.timeout.or p.settings.defaultTimeout } ∧
    1 ≤ n ∧ n ≤ sub.maxRetries.toNat

theorem Change.serves (change : Change s s') {queue : String} (serves : s'.Serves queue j) :
    s.Serves queue j := by
  intro p hp pulls
  obtain ⟨p', hp', codec, registry, settings⟩ := change.exists_pool hp
  have schedule : p'.schedule = p.schedule := by rw [Pool.schedule, settings, Pool.schedule]
  rw [← codec, ← registry]
  exact serves p' hp' (schedule ▸ pulls)

theorem Goes.serves (sound : s.Sound) (goes : Goes s s') {queue : String}
    (serves : s'.Serves queue j) : s.Serves queue j := by
  cases goes with
  | step step => exact (step.change sound.quiet).serves serves
  | closed => exact serves

theorem Serves.handles (serves : s.Serves sub.queue j) (carries : m.Carries j sub) :
    s.Handles m := by
  intro p hp pulls
  obtain ⟨codec, registered⟩ := serves p hp (carries.queue ▸ pulls)
  exact Pool.handles_of_carries carries codec registered

theorem Told.change {n : Nat} {c : Place × Invocation} (told : s.Told id sub j n c)
    (change : Change s s') : s'.Told id sub j n c := by
  obtain ⟨p, handler, there, resolved, job, context, bounds⟩ := told
  obtain ⟨p', there', -, registry, settings⟩ := change.getElem?_pool there
  refine ⟨p', handler, there', registry ▸ resolved, job, ?_, bounds⟩
  rw [context, settings]

/-- What a slot that works on a message makes of it. -/
theorem Works.of_task (works : s.Works id m) (sound : s.Sound) (serves : s.Serves sub.queue j)
    (carries : m.Carries j sub) {i slot : Nat} {p : Pool η} (found : s.pools[i]? = some p)
    {f : Phase} (phase : p.slots[slot]? = some f) {t : Task} (task : f.task? = some t)
    (about : t.delivery.job = id) :
    Doing sub.maxRetries.toNat t.delivery.attempt.toNat i f (s.callsOf id) ∧
      t.envelope.toJob t.kind = .ok j ∧
      t.context =
        { job := id, type := j.tag, queue := sub.queue, attempt := t.delivery.attempt
          maxRetries := sub.maxRetries, timeout := sub.timeout.or p.settings.defaultTimeout } ∧
      ∃ handler, p.registry.resolve j.tag = some (j.kind, handler) := by
  have mem := List.mem_of_getElem? phase
  have holds : f.Holds id := ⟨_, Phase.delivery?_of_task? task, about⟩
  cases works with
  | free held => exact absurd holds (held (i, slot) f (by rw [phase?_at found, phase]))
  | @busy _ _ d held delivery job message doing =>
    cases held.eq_of_holds found phase holds
    have eq : t.delivery = d := by
      rw [Phase.delivery?_of_task? task] at delivery
      exact Option.some.inj delivery
    have queue := ((sound.of_mem found).delivery f mem _ delivery).2
    rw [message, carries.queue] at queue
    obtain ⟨codec, -⟩ := serves p (List.mem_of_getElem? found) queue
    have suits := (sound.of_mem found).suits f mem t task
    rw [← eq] at message doing
    obtain ⟨fits, context, handler⟩ := suits.of_carries codec (message ▸ carries)
    refine ⟨carries.budget ▸ doing, fits, ?_, handler⟩
    rw [context, Pool.contextOf, about, Delivery.maxAttempts, message, carries.budget,
      carries.queue, carries.timeout]

/-- The invocation that a slot begins for a message is what its attempt calls for. -/
theorem Works.told (works : s.Works id m) (sound : s.Sound) (serves : s.Serves sub.queue j)
    (carries : m.Carries j sub) {i slot n : Nat} {p : Pool η} (found : s.pools[i]? = some p)
    {f : Phase} (phase : p.slots[slot]? = some f) {stage : Stage} {t : Task} {job : Job}
    (asks : Pool.Asks f stage t job) (about : t.context.job = id) :
    s.Told id sub j
      (handlingsIn (s.asked id ++ [((i, n), { stage, context := t.context, job })])).length
      ((i, n), { stage, context := t.context, job }) := by
  have job_eq := (sound.of_mem found).job_eq (List.mem_of_getElem? phase) asks.task?
  obtain ⟨doing, fits, context, handler, resolved⟩ :=
    works.of_task sound serves carries found phase asks.task? (job_eq ▸ about)
  have payload : job = j := by
    rw [asks.toJob] at fits
    exact Except.ok.inj fits
  obtain ⟨count, bounds⟩ := doing.length_handlings asks (i, n)
  have attempt : (handlingsIn (s.asked id ++
      [((i, n), { stage, context := t.context, job })])).length = t.delivery.attempt.toNat := by
    rw [← count, ← length_handlings_begun (s.callsOf id ++ _), List.map_append]
    rfl
  refine ⟨p, handler, found, ?_, payload, ?_, attempt ▸ bounds⟩
  · show p.registry.resolve t.context.type = _
    rw [context]
    exact resolved
  · rw [attempt, UInt32.ofNat_toNat]
    exact context

/-! ## From the dispatch to the handler -/

/-- Whether a site does right by a message with a job. -/
structure Faithful (s : Site η) (id : JobId) (m : Message) (j : Job) (sub : Submission) :
    Prop where
  /-- The site is sound. -/
  sound : s.Sound
  /-- The message was taken. -/
  taken : id ∈ ids s.history
  /-- While the broker is open, the message is on its course. -/
  follows : s.broker.store.isOpen → ∃ r, s.Follows id m r
  /-- The slot that has the message is where its delivery says. -/
  works : s.Works id m
  /-- Each invocation is what its attempt calls for. -/
  told : ∀ earlier c later, s.asked id = earlier ++ c :: later →
    s.Told id sub j (handlingsIn (earlier ++ [c])).length c

/-- Invocations stay what their attempts call for, and one that begins is. -/
theorem Faithful.told_change (faithful : s.Faithful id m j sub) (carries : m.Carries j sub)
    (serves : s.Serves sub.queue j) (change : Change s s') :
    ∀ earlier c later, s'.asked id = earlier ++ c :: later →
      s'.Told id sub j (handlingsIn (earlier ++ [c])).length c := by
  intro earlier c later eq
  rcases change.asked faithful.sound id with
    same | ⟨i, p, slot, f, stage, t, job, n, found, phase, asks, about, more⟩
  · exact (faithful.told earlier c later (same ▸ eq)).change change
  · rw [more] at eq
    rcases concat_cases eq with ⟨rfl, rfl, -⟩ | ⟨rest, -, old⟩
    · exact (faithful.works.told faithful.sound serves carries found phase asks about).change change
    · exact (faithful.told earlier c rest old).change change

/-- A site that goes on keeps doing right by a message. -/
theorem Faithful.goes (faithful : s.Faithful id m j sub) (carries : m.Carries j sub)
    (serves : s.Serves sub.queue j) (goes : Goes s s') : s'.Faithful id m j sub := by
  have sound := faithful.sound
  cases goes with
  | step step =>
    have change := step.change sound.quiet
    have handled := serves.handles carries
    have isOpen := step.isOpen_eq sound.quiet
    have follows : s'.broker.store.isOpen → ∃ r, s'.Follows id m r := by
      intro isOpen'
      rw [isOpen] at isOpen'
      obtain ⟨r, follows⟩ := faithful.follows isOpen'
      exact follows.step sound isOpen' faithful.taken handled step
    refine ⟨sound.step step, change.ids_subset faithful.taken, follows, ?_,
      faithful.told_change carries serves change⟩
    by_cases isOpen' : s.broker.store.isOpen
    · obtain ⟨r, follows⟩ := follows (isOpen ▸ isOpen')
      exact follows.works
    · exact faithful.works.change_of_closed sound isOpen' handled change
  | closed =>
    refine ⟨sound.goes .closed, ?_, nofun, faithful.works.of_same (fun _ _ _ => .rfl) rfl,
      faithful.told⟩
    show id ∈ ids (s.history ++ _)
    rw [ids_append]
    exact List.mem_append_left _ faithful.taken

/-- A site does right by a message for ever. -/
theorem Faithful.later (first : s.Faithful id m j sub) (carries : m.Carries j sub)
    (later : Relation.ReflTransGen Goes s s') (serves : s'.Serves sub.queue j) :
    s'.Faithful id m j sub := by
  have both : s'.Sound ∧ (s'.Serves sub.queue j → s'.Faithful id m j sub) := by
    clear serves
    induction later with
    | refl => exact ⟨first.sound, fun _ => first⟩
    | tail _ goes ih =>
      refine ⟨ih.1.goes goes, ?_⟩
      intro serves
      have served := goes.serves ih.1 serves
      exact (ih.2 served).goes carries served goes
  exact both.2 serves

/-- The site after a client has dispatched a job. -/
def dispatched (s : Site η) (codec : Codec) (choices : List Choice) (j : Job) (id : JobId)
    (now : Instant) : Site η :=
  match Message.ofJob codec choices j now with
  | .error _ => s
  | .ok m => s.called (.enqueue id m now) (dispatch codec choices j id now s.broker).broker

/-- What was made into a message is enqueued, and the client learns its identifier. -/
theorem Run.dispatch_eq (run : Run s) {codec : Codec} {choices : List Choice} {now : Instant}
    (made : Message.ofJob codec choices j now = .ok m) (id : JobId) :
    (dispatch codec choices j id now s.broker).reply = .answered (.ok id) ∧
      s.dispatched codec choices j id now = s.served (.enqueue id m now) := by
  have enqueue : s.broker.enqueue id m now =
      (.answered (.ok id), s.broker.served (.enqueue id m now)) := by
    rw [← Broker.enqueue_of_quiet run.sound.quiet, Broker.enqueue,
      Broker.call_of_quiet run.sound.quiet .enqueue _ .enqueued,
      Store.enqueue_of_isOpen run.isOpen]
    rfl
  unfold dispatched dispatch
  rw [made, Posting.dispatch_of_taken made enqueue]
  exact ⟨rfl, rfl⟩

/-- A site does right by a message that it takes. -/
theorem Run.faithful_enqueued (run : Run s) (fresh : id ∉ ids s.history) (now : Instant) :
    (s.served (.enqueue id m now)).Faithful id m j sub := by
  have enqueued := Store.enqueued?_exchange_of_isOpen run.isOpen id m now
  have follows := Follows.of_enqueued run.sound fresh enqueued
  refine ⟨run.sound.served fresh, ?_, fun _ => ⟨_, follows⟩, follows.works, ?_⟩
  · show id ∈ ids (s.history ++ [_])
    rw [ids_concat, enqueued]
    exact List.mem_append_right _ List.mem_cons_self
  · intro earlier c later eq
    rw [asked, callsOf_served, run.sound.callsOf_eq_nil fresh] at eq
    cases earlier <;> cases eq

/-- However slots and clients take turns, a job that was dispatched comes to its
handler as it was.  An invocation that is the `k`-th to do the job, or that follows it
to tell of a failure, is what attempt `k` calls for; and a slot that is to tell the
handler of a failure can. -/
theorem Run.faithful {s₀ : Site η} (run : Run s₀) (record : j.kind ≠ .keyed)
    (choices : List Choice) (fresh : id ∉ ids s₀.history) (now : Instant)
    (later : Relation.ReflTransGen Goes (s₀.dispatched .json choices j id now) s)
    (serves : s.Serves (Submission.resolve choices j now).queue j) :
    (dispatch .json choices j id now s₀.broker).reply = .answered (.ok id) ∧
      (∀ earlier c later, s.callsOf id = earlier ++ c :: later →
        s.Told id (Submission.resolve choices j now) j (handlingsIn (earlier ++ [c])).length c) ∧
      ∀ (p : Pool η) (slot : Nat) (t : Task) (e : JobError), p ∈ s.pools →
        p.slots[slot]? = some (.hooking t e) → t.delivery.job = id →
          p.callHook slot t e = (p.invoke slot (.failed e) t j (.hooked t e), []) := by
  obtain ⟨m, made, carries⟩ := Message.exists_ofJob record choices now
  obtain ⟨reply, dispatched⟩ := run.dispatch_eq made id
  rw [dispatched] at later
  have faithful := (run.faithful_enqueued fresh now).later carries later serves
  refine ⟨reply, ?_, ?_⟩
  · intro earlier c later eq
    have told := faithful.told (earlier.map begun) (begun c) (later.map begun)
      (by rw [asked, eq, List.map_append, List.map_cons])
    have count := length_handlings_begun (earlier ++ [c])
    rw [List.map_append] at count
    rw [← count]
    exact told
  · intro p slot t e mem phase about
    obtain ⟨i, found⟩ := List.mem_iff_getElem?.mp mem
    obtain ⟨-, fits, -⟩ :=
      faithful.works.of_task faithful.sound serves carries found phase rfl about
    rw [Pool.callHook, fits]

/-- A job that is dispatched with two attempts. -/
def exampleNote : Job := .createLog ⟨7, "closed"⟩

/-- A site with a pool of one slot that knows two kinds of jobs. -/
def exampleSite : Site Unit where
  pools := [(Pool.start
    { settings := { Settings.default with concurrency := 1, retryBackoff := .zero }
      codec := .json, registry := { routes := [(.mine, ()), (.createLog, ())] } }).1]

theorem faithful_of_example :
    ∃ (s : Site Unit) (first second hook : Place × Invocation),
      Relation.ReflTransGen Goes
        (exampleSite.dispatched .json [.maxRetries 2] exampleNote ⟨"1"⟩ .epoch) s ∧
      s.callsOf ⟨"1"⟩ = [first, second, hook] ∧ hook.2.stage = .failed (.permanent "no") ∧
      let sub := Submission.resolve [.maxRetries 2] exampleNote .epoch
      s.Told ⟨"1"⟩ sub exampleNote 1 first ∧ s.Told ⟨"1"⟩ sub exampleNote 2 second ∧
        s.Told ⟨"1"⟩ sub exampleNote 2 hook := by
  have run : exampleSite.Run := .step .start (.opened _)
  have later : Relation.ReflTransGen Goes
    (exampleSite.dispatched .json [.maxRetries 2] exampleNote ⟨"1"⟩ .epoch) _ := .refl
  -- the handler fails at the first attempt,
  have later := later.tail (.step (.moved (i := 0) rfl 0 .check rfl rfl))
  have later := later.tail (.step
    (.pulled (i := 0) rfl 0 (fun _ => 0) ⟨"x"⟩ .epoch (by decide) rfl))
  have later := later.tail (.step (.moved (i := 0) rfl 0 .look rfl rfl))
  have later := later.tail (.step (.moved (i := 0) rfl 0 .raise rfl rfl))
  have later := later.tail (.step (.moved (i := 0) rfl 0 .call rfl rfl))
  have later := later.tail (.step
    (.moved (i := 0) rfl 0 (.finish (.returned (.error (.retryable "wait"))) .epoch) rfl rfl))
  have later := later.tail (.step (.settled (i := 0) rfl 0 rfl .epoch rfl))
  -- and for good at the second, while the broker closes
  have later := later.tail (.step (.moved (i := 0) rfl 0 .check rfl rfl))
  have later := later.tail (.step
    (.pulled (i := 0) rfl 0 (fun _ => 0) ⟨"y"⟩ .epoch (by decide) rfl))
  have later := later.tail (.step (.moved (i := 0) rfl 0 .look rfl rfl))
  have later := later.tail .closed
  have later := later.tail (.step (.moved (i := 0) rfl 0 .raise rfl rfl))
  have later := later.tail (.step (.moved (i := 0) rfl 0 .call rfl rfl))
  have later := later.tail (.step
    (.moved (i := 0) rfl 0 (.finish (.returned (.error (.permanent "no"))) .epoch) rfl rfl))
  have later := later.tail (.step (.moved (i := 0) rfl 0 .callHook rfl rfl))
  obtain ⟨-, told, -⟩ := run.faithful (by decide) [.maxRetries 2] (by decide) .epoch later (by
    intro p hp _
    cases List.mem_singleton.mp hp
    exact ⟨rfl, rfl⟩)
  exact ⟨_, _, _, _, later, rfl, rfl, told [] _ [_, _] rfl, told [_] _ [_] rfl,
    told [_, _] _ [] rfl⟩

end Site

end JobQueue
