import JobQueue.Proofs.Site.Course

/-!
# The budget of a message

`Site.Run.budget` is the result: in every site that comes about, a message that its
pools can handle is handed out and handled no more often than it gets attempts; and
once its record says that nothing follows, the invocations for it tell the whole
story.
-/

namespace JobQueue

open History

/-- Every message gets an attempt. -/
theorem Message.budget_pos (m : Message) : 0 < m.budget.toNat := by
  unfold budget
  split
  · decide
  · next ne =>
    rw [Nat.pos_iff_ne_zero]
    intro zero
    exact ne (UInt32.toNat_inj.mp zero)

namespace Site

variable {η : Type} {s s' : Site η} {id : JobId} {m : Message} {r : Record}

/-- Whether every pool that pulls from the queue of a message can handle it. -/
def Handles (s : Site η) (m : Message) : Prop :=
  ∀ p ∈ s.pools, m.queue ∈ p.schedule.names → p.Handles m

/-- A slot that works on a message that its pool can handle follows its course. -/
theorem Handles.doing_turn (handled : s.Handles m) (sound : s.Sound) {i slot : Nat} {p : Pool η}
    (found : s.pools[i]? = some p) {f f' : Phase} (phase : p.slots[slot]? = some f) {d : Delivery}
    (delivery : f.delivery? = some d) (job : d.job = id) (message : d.message = m)
    (doing : Doing m.budget.toNat d.attempt.toNat i f (s.callsOf id)) {move : Move}
    {calls : List Invocation} {counters : Metrics} (turn : p.Turn f move f' calls counters)
    (own : move.isOwn) :
    Doing m.budget.toNat d.attempt.toNat i f'
      ((s.turned i p (p.after slot f' calls counters)).callsOf id) := by
  have queue := ((sound.of_mem found).delivery f (List.mem_of_getElem? phase) d delivery).2
  subst message
  have handles := handled p (List.mem_of_getElem? found) queue
  exact sound.doing_turn found phase delivery job handles doing turn own

/-- Whether a message of a site is on its course, with this record. -/
structure Follows (s : Site η) (id : JobId) (m : Message) (r : Record) : Prop where
  /-- This is its record. -/
  knows : s.broker.store.Knows id r
  /-- The record is under its own identifier. -/
  id_eq : r.id = id
  /-- The record holds the message. -/
  message : r.message = m
  /-- The record counts the deliveries. -/
  count : r.attempt.toNat = (deliveriesOf s.history id).length
  /-- The message is on its course. -/
  course : ∃ holder, s.HeldBy id holder ∧ Course m.budget.toNat r holder (s.callsOf id)

/-- A pool that starts has no message. -/
theorem phase?_opened (w : Worker η) {place : Place} {f : Phase} (holds : f.Holds id) :
    ({ s with pools := s.pools ++ [(Pool.start w).1] } : Site η).phase? place = some f ↔
      s.phase? place = some f := by
  unfold phase?
  rw [List.getElem?_append]
  split
  · rfl
  · next beyond =>
    rw [List.getElem?_eq_none (Nat.le_of_not_lt beyond), Option.bind_none]
    refine iff_of_false ?_ nofun
    intro phase
    obtain ⟨p, found, phase⟩ := Option.bind_eq_some_iff.mp phase
    have start : p = (Pool.start w).1 := by
      simpa using List.mem_of_getElem? found
    subst start
    rw [List.eq_of_mem_replicate (List.mem_of_getElem? phase)] at holds
    exact Phase.not_holds_of_none rfl id holds

namespace Follows

/-- A step that does not touch the message leaves it on its course. -/
theorem of_same (follows : s.Follows id m r) (knows : s'.broker.store.Knows id r)
    (deliveries : deliveriesOf s'.history id = deliveriesOf s.history id)
    (phases : ∀ place f, f.Holds id → (s'.phase? place = some f ↔ s.phase? place = some f))
    (calls : s'.callsOf id = s.callsOf id) : s'.Follows id m r where
  knows := knows
  id_eq := follows.id_eq
  message := follows.message
  count := by rw [deliveries, follows.count]
  course := by
    obtain ⟨holder, held, course⟩ := follows.course
    exact ⟨holder, held.of_iff phases, calls ▸ course⟩

/-- A new message is on its course. -/
theorem of_enqueued (sound : s.Sound) {born : Instant} (fresh : id ∉ ids s.history)
    (enqueued : (s.broker.store.exchange (.enqueue id m born)).enqueued? = some (id, m, born)) :
    (s.served (.enqueue id m born)).Follows id m (.ofMessage id m born) where
  knows := .inl
    (Store.record?_of_enqueued?_exchange enqueued (sound.run.record?_of_not_mem fresh))
  id_eq := rfl
  message := rfl
  count := by
    show 0 = (deliveriesOf (s.history ++ [_]) id).length
    rw [deliveriesOf_concat, deliveriesOf_eq, sound.run.momentsOf_eq_nil fresh]
    rfl
  course := by
    refine ⟨none, ?_, ?_⟩
    · rintro ⟨i, slot⟩ f phase ⟨d, hd, rfl⟩
      obtain ⟨p, found, phase⟩ := Option.bind_eq_some_iff.mp phase
      exact fresh ((sound.of_mem found).delivery f (List.mem_of_getElem? phase) d hd).1
    · rw [callsOf_served, sound.callsOf_eq_nil fresh]
      refine .waiting ?_ ?_ rfl m.budget_pos
      · simp only [Record.ofMessage]
        split <;> rfl
      · intro c mem
        cases mem

/-- A call of a client leaves every message that was taken on its course. -/
theorem served (follows : s.Follows id m r) (sound : s.Sound) (taken : id ∈ ids s.history)
    {q : Request} (fresh : q.IsFresh s.history) (ofClient : q.IsOfClient) :
    (s.served q).Follows id m r := by
  have others : ∀ m now, q ≠ .enqueue id m now := by
    rintro m now rfl
    exact fresh taken
  obtain ⟨r', makes, knows⟩ := follows.knows.call sound.run.ids_records.1 others
  cases makes with
  | same other =>
    refine follows.of_same knows ?_ (fun _ _ _ => .rfl) (callsOf_served q id)
    exact deliveriesOf_of_other other s.history
  | leased => cases ofClient
  | settled => cases ofClient

variable {i slot : Nat} {p : Pool η}

/-- A slot that pulls takes up a message that waits, or leaves it on its course. -/
theorem pulled (follows : s.Follows id m r) (sound : s.Sound)
    (found : s.pools[i]? = some p) (phase : p.slots[slot]? = some .pulling) (queues : List String)
    (lease : LeaseToken) (now : Instant) {f : Phase}
    (answer : f = .ofAnswer (s.broker.store.perform (.dequeue queues lease now)).answer) :
    ∃ r', ((s.served (.dequeue queues lease now)).put i
      (p.after slot f p.invocations p.metrics)).Follows id m r' := by
  obtain ⟨holder, held, course⟩ := follows.course
  obtain ⟨r', makes, knows⟩ := follows.knows.call (q := .dequeue queues lease now)
    sound.run.ids_records.1 (fun _ _ => nofun)
  have calls := callsOf_put_served found (.dequeue queues lease now) slot f p.metrics id
  have free : ¬ Phase.pulling.Holds id := Phase.not_holds_of_none rfl id
  cases makes with
  | same other =>
    have other' : ¬ f.Holds id := by
      rw [answer]
      rintro ⟨d, hd, job⟩
      have moment := Store.moment?_of_dequeued (Phase.answer_eq_of_delivery? hd)
      exact other (.leased d now) moment job
    refine ⟨r, knows, follows.id_eq, follows.message, ?_, holder, ?_, calls ▸ course⟩
    · rw [follows.count]
      exact (congrArg List.length (deliveriesOf_of_other other s.history)).symm
    · exact HeldBy.put_of_not_holds (s := s.served _) held found phase free other'
  | leased ready answer' =>
    rw [answer'] at answer
    subst answer
    have waits := Record.isWaiting_of_isDeliverable ready
    obtain ⟨rfl, -, count, left⟩ := course.of_isWaiting waits
    have given := Store.delivery?_of_dequeued answer'
    have job : ((r.start lease now).delivery lease).job = id := follows.id_eq
    refine ⟨_, knows, follows.id_eq, follows.message, ?_,
      some ((i, slot), .holding ((r.start lease now).delivery lease)), ?_, ?_⟩
    · rw [attempt_start (count ▸ left), follows.count]
      show _ = (deliveriesOf (s.history ++ [_]) id).length
      rw [deliveriesOf_concat, given, Option.filter_some, if_pos (decide_eq_true job),
        List.length_append]
      rfl
    · exact HeldBy.put_holds (s := s.served _) held found phase ⟨_, rfl, job⟩
    · rw [calls]
      exact course.start waits lease now (i, slot)

/-- A slot that settles its message ends the attempt, or leaves the message on its
course. -/
theorem settled (follows : s.Follows id m r) (sound : s.Sound) (isOpen : s.broker.store.isOpen)
    (found : s.pools[i]? = some p) {d : Delivery} {outcome : Outcome} {v : Verdict}
    {isCounted : Bool} (phase : p.slots[slot]? = some (.settling d outcome v isCounted))
    (now : Instant) (counters : Metrics) :
    ∃ r', ((s.served (.settle d v now)).put i
      (p.after slot .ready p.invocations counters)).Follows id m r' := by
  obtain ⟨holder, held, course⟩ := follows.course
  obtain ⟨r', makes, knows⟩ := follows.knows.call (q := .settle d v now)
    sound.run.ids_records.1 (fun _ _ => nofun)
  have calls := callsOf_put_served found (.settle d v now) slot .ready counters id
  have free : ¬ Phase.ready.Holds id := Phase.not_holds_of_none rfl id
  have count : (deliveriesOf (s.history ++ [s.broker.store.exchange (.settle d v now)]) id).length =
      (deliveriesOf s.history id).length := by
    rw [deliveriesOf_concat]
    exact congrArg List.length (List.append_nil _)
  by_cases job : d.job = id
  · have here := held.eq_of_holds found phase ⟨d, rfl, job⟩
    subst here
    have left : ((s.served (.settle d v now)).put i
        (p.after slot .ready p.invocations counters)).HeldBy id none :=
      HeldBy.put_leaves (s := s.served (.settle d v now)) held found phase free
    have accepted : (s.broker.store.perform (.settle d v now)).answer = .settled := by
      cases course with
      | @held lease _ _ _ active lease_eq delivery =>
        cases delivery
        have known : s.broker.store.record? (r.delivery lease).job = some r := by
          rcases follows.knows with known | ⟨-, ended⟩
          · exact job ▸ known
          · rw [active] at ended
            cases ended
        rw [Store.perform_settle, Store.settle_of_held isOpen v now known lease_eq]
        rfl
    cases makes with
    | same other =>
      exact absurd job (other (.settled d v now) (Store.moment?_of_settled accepted))
    | settled =>
      refine ⟨_, knows, ?_, ?_, ?_, none, left, ?_⟩
      · rw [Record.settle_id, follows.id_eq]
      · rw [Record.settle_message, follows.message]
      · rw [Record.settle_attempt, follows.count]
        exact count.symm
      · rw [calls]
        exact course.settle now
  · cases makes with
    | same =>
      refine ⟨r, knows, follows.id_eq, follows.message, ?_, holder, ?_, calls ▸ course⟩
      · rw [follows.count]
        exact count.symm
      · refine HeldBy.put_of_not_holds (s := s.served _) held found phase ?_ free
        rintro ⟨d', eq, job'⟩
        cases eq
        exact job job'
    | settled job' => exact absurd job' job

/-- A slot that goes on follows the course of its message, and leaves the others on
theirs. -/
theorem moved (follows : s.Follows id m r) (sound : s.Sound)
    (handled : s.Handles m) (found : s.pools[i]? = some p) {f f' : Phase} {move : Move}
    {calls : List Invocation} {counters : Metrics} (phase : p.slots[slot]? = some f)
    (turn : p.Turn f move f' calls counters) (own : move.isOwn) :
    (s.turned i p (p.after slot f' calls counters)).Follows id m r := by
  obtain ⟨holder, held, course⟩ := follows.course
  have same := Phase.holds_congr (turn.delivery?_eq own) id
  refine ⟨follows.knows, follows.id_eq, follows.message, follows.count, ?_⟩
  by_cases holds : f.Holds id
  · have here := held.eq_of_holds found phase holds
    subst here
    refine ⟨some ((i, slot), f'), HeldBy.put_keeps held found phase (same.mpr holds), ?_⟩
    cases course with
    | @held lease _ _ _ active lease_eq delivery doing =>
      refine .held active lease_eq ((turn.delivery?_eq own).trans delivery) ?_
      exact handled.doing_turn sound found phase delivery follows.id_eq follows.message doing turn
        own
  · refine ⟨holder, HeldBy.put_of_not_holds held found phase holds (mt same.mp holds), ?_⟩
    rw [callsOf_turned_of_not_holds sound found phase turn holds]
    exact course

end Follows

/-- Every step leaves a message that its pools can handle on its course. -/
theorem Follows.step (follows : s.Follows id m r) (sound : s.Sound)
    (isOpen : s.broker.store.isOpen) (taken : id ∈ ids s.history) (handled : s.Handles m)
    (step : Step s s') : ∃ r', s'.Follows id m r' := by
  cases step.change sound.quiet with
  | opened w =>
    refine ⟨r, follows.of_same follows.knows rfl (fun _ _ holds => phase?_opened w holds) ?_⟩
    exact callsOf_opened w id
  | tuned found agrees =>
    refine ⟨r, follows.of_same follows.knows rfl ?_ (callsOf_put found agrees.invocations id)⟩
    intro place f holds
    rw [phase?_put_of_eq found agrees.slots]
  | client fresh ofClient => exact ⟨r, follows.served sound taken fresh ofClient⟩
  | pulled found phase draw now fresh turn answer =>
    exact follows.pulled sound found phase _ _ now answer
  | settled found phase now turn => exact follows.settled sound isOpen found phase now _
  | moved found phase turn own =>
    exact ⟨r, follows.moved sound handled found phase turn own⟩

/-- Pools do not change what they run with. -/
theorem Change.getElem?_pool (change : Change s s') {k : Nat} {p : Pool η}
    (there : s.pools[k]? = some p) : ∃ p', s'.pools[k]? = some p' ∧
      p'.codec = p.codec ∧ p'.registry = p.registry ∧ p'.settings = p.settings := by
  have keep : ∀ {t : Site η} {i : Nat} {q q' : Pool η}, t.pools = s.pools →
      s.pools[i]? = some q →
      (q'.codec = q.codec ∧ q'.registry = q.registry ∧ q'.settings = q.settings) →
        ∃ p', (t.put i q').pools[k]? = some p' ∧
          p'.codec = p.codec ∧ p'.registry = p.registry ∧ p'.settings = p.settings := by
    intro t i q q' pools found same
    rw [getElem?_put (s := t) (pools ▸ found), pools]
    by_cases eq : k = i
    · subst eq
      rw [found] at there
      cases there
      exact ⟨q', if_pos rfl, same⟩
    · exact ⟨p, (if_neg eq).trans there, rfl, rfl, rfl⟩
  cases change with
  | opened w =>
    refine ⟨p, ?_, rfl, rfl, rfl⟩
    rw [List.getElem?_append_left (List.getElem?_eq_some_iff.mp there).1, there]
  | tuned found agrees => exact keep rfl found ⟨agrees.codec, agrees.registry, agrees.settings⟩
  | client => exact ⟨p, there, rfl, rfl, rfl⟩
  | @pulled i p found slot phase draw lease now =>
    exact keep (t := s.served (.dequeue (p.schedule.round draw) lease now)) rfl found
      ⟨rfl, rfl, rfl⟩
  | @settled i p found slot d outcome v isCounted phase now =>
    exact keep (t := s.served (.settle d v now)) rfl found ⟨rfl, rfl, rfl⟩
  | moved found => exact keep rfl found ⟨rfl, rfl, rfl⟩

theorem Change.exists_pool (change : Change s s') {p : Pool η} (hp : p ∈ s.pools) :
    ∃ p' ∈ s'.pools,
      p'.codec = p.codec ∧ p'.registry = p.registry ∧ p'.settings = p.settings := by
  obtain ⟨k, there⟩ := List.mem_iff_getElem?.mp hp
  obtain ⟨p', there', same⟩ := change.getElem?_pool there
  exact ⟨p', List.mem_of_getElem? there', same⟩

/-- What all pools can handle they could handle before. -/
theorem Change.handles (change : Change s s') (handles : s'.Handles m) : s.Handles m := by
  intro p hp queue
  obtain ⟨p', hp', codec, registry, settings⟩ := change.exists_pool hp
  have schedule : p'.schedule = p.schedule := by
    rw [Pool.schedule, settings, Pool.schedule]
  have handled := handles p' hp' (schedule ▸ queue)
  unfold Pool.Handles at handled ⊢
  rw [codec, registry] at handled
  exact handled

/-- What holds of a site that takes a message, and what every later step keeps, holds
of every site that has taken it. -/
theorem Run.since {P : Site η → Prop} (run : Run s) {born : Instant}
    (taken : (id, m, born) ∈ enqueued s.history)
    (new : ∀ {s : Site η}, s.Sound → id ∉ ids s.history →
      (s.broker.store.exchange (.enqueue id m born)).enqueued? = some (id, m, born) →
        P (s.served (.enqueue id m born)))
    (next : ∀ {s s' : Site η}, Run s → (id, m, born) ∈ enqueued s.history → Step s s' →
      P s → P s') : P s := by
  induction run with
  | start => cases taken
  | @step s s' run step ih =>
    have old : (id, m, born) ∈ enqueued s.history → P s' := fun before =>
      next run before step (ih before)
    have last : ∀ {q : Request},
        (id, m, born) ∈ enqueued (s.history ++ [s.broker.store.exchange q]) →
          (id, m, born) ∈ enqueued s.history ∨
            (s.broker.store.exchange q).enqueued? = some (id, m, born) := by
      intro q mem
      rw [enqueued_concat, List.mem_append, Option.mem_toList] at mem
      exact mem
    cases step.change run.sound.quiet with
    | opened => exact old taken
    | tuned => exact old taken
    | client fresh ofClient =>
      rcases last taken with before | enqueued
      · exact old before
      · cases Store.enqueued?_exchange enqueued
        exact new run.sound fresh enqueued
    | pulled =>
      rcases last taken with before | enqueued
      · exact old before
      · cases Store.enqueued?_exchange enqueued
    | settled =>
      rcases last taken with before | enqueued
      · exact old before
      · cases Store.enqueued?_exchange enqueued
    | moved => exact old taken

/-- Every message that was taken and that its pools can handle is on its course. -/
theorem Run.follows (run : Run s) {born : Instant} (taken : (id, m, born) ∈ enqueued s.history)
    (handles : s.Handles m) : ∃ r, s.Follows id m r := by
  revert handles
  refine run.since taken (P := fun s => s.Handles m → ∃ r, s.Follows id m r) ?_ ?_
  · intro s sound fresh enqueued _
    exact ⟨_, .of_enqueued sound fresh enqueued⟩
  · intro s s' run before step ih handles
    have handled := (step.change run.sound.quiet).handles handles
    obtain ⟨r, follows⟩ := ih handled
    exact follows.step run.sound run.isOpen (List.mem_map_of_mem before) handled step

/-! ## What the invocations tell -/

/-- The invocations that do the job of a message. -/
def handlings (s : Site η) (id : JobId) : List Invocation := handlingsIn (s.callsOf id)

/-- The invocations that tell the handler that the job of a message failed for
good. -/
def hooks (s : Site η) (id : JobId) : List Invocation := hooksIn (s.callsOf id)

/-- Whether the invocations for a message with `N` attempts tell how it ended.  All
but the last failed, but could be repeated.  The last succeeded, and the handler was
never told of a failure; or it failed for good, for its own reason or because it was
that of the last attempt, and the handler was told so once. -/
def Ended (s : Site η) (id : JobId) (N : Nat) (r : Record) : Prop :=
  ∃ tries last, s.handlings id = tries ++ [last] ∧
    (∀ c ∈ tries, ∃ reason, c.result? = some (.error (.retryable reason))) ∧
    ((last.result? = some (.ok ()) ∧ (∃ t, r.status = .completed t) ∧ s.hooks id = []) ∨
      ∃ e, last.result? = some (.error e) ∧ (e.isRetryable → (s.handlings id).length = N) ∧
        (∃ t, r.status = .archived t e.reason) ∧
          ∃ hook, s.hooks id = [hook] ∧ hook.stage = .failed e)

/-- A message for which nothing follows has ended. -/
theorem ended_of_course {N : Nat} {holder : Option (Place × Phase)}
    (course : Course N r holder (s.callsOf id)) (terminal : r.status.isTerminal) :
    s.Ended id N r := by
  have tell : ∀ {tries : Calls}, IsTries tries →
      ∀ c ∈ tries.map Prod.snd, ∃ reason, c.result? = some (.error (.retryable reason)) := by
    intro tries all c mem
    obtain ⟨c', mem', rfl⟩ := List.mem_map.mp mem
    exact (all c' mem').2
  unfold Ended handlings hooks
  generalize s.callsOf id = calls at course
  cases course with
  | waiting waits => exact absurd waits (Status.not_isWaiting_of_isTerminal terminal)
  | held active =>
    rw [active] at terminal
    cases terminal
  | completed status succeeds =>
    obtain ⟨tries, last, rfl, before, stage, result⟩ := succeeds
    refine ⟨tries.map Prod.snd, last.2, ?_, tell before.tries, .inl ⟨result, ⟨_, status⟩, ?_⟩⟩
    · rw [handlingsIn_concat tries stage, before.tries.handlings_eq]
    · rw [hooksIn_concat tries stage, before.tries.hooks_eq]
  | archived status givenUp =>
    have count := givenUp.length_handlings.1
    obtain ⟨_, hook, e, rfl, ⟨tries, last, rfl, before, stage, result, final⟩, told, rfl⟩ := givenUp
    refine ⟨tries.map Prod.snd, last.2, ?_, tell before.tries,
      .inr ⟨e, result, ?_, ⟨_, status⟩, hook.2, ?_, told⟩⟩
    · rw [handlingsIn_concat_hook _ told, handlingsIn_concat tries stage,
        before.tries.handlings_eq]
    · intro retryable
      rw [count, final retryable]
    · rw [hooksIn_concat_hook _ told, hooksIn_concat tries stage, before.tries.hooks_eq]
      rfl

/-- A message with two attempts; its envelope is a tag and an empty list of pairs. -/
def exampleMessage : Message where
  type := "bad:keys"
  queue := "default"
  envelope := [
    123, 34, 116, 121, 112, 101, 34, 58, 34, 98, 97, 100, 58, 107, 101, 121, 115, 34, 44,
    34, 100, 97, 116, 97, 34, 58, 123, 34, 112, 97, 105, 114, 115, 34, 58, 91, 93, 125, 125]
  maxRetries := 2
  processAt := .epoch
  timeout := none

/-- A worker with one slot and a handler for that message. -/
def exampleWorker : Worker Unit where
  settings := { Settings.default with concurrency := 1, retryBackoff := .zero }
  codec := .json
  registry := { routes := [(.keyed, ())] }

end Site

end JobQueue
