import JobQueue.Broker
import JobQueue.Proofs.Store.Held
import JobQueue.Proofs.Store.Log
import Mathlib.Logic.Relation

/-!
# Calls that overlap

A call of a broker has two steps.  It changes the store under a lock, and when it has let
go of the lock it tells its listeners.  Calls of several clients overlap, so between the
two steps of one call others may change the store, and tell of it.

An `Overlap` is a broker in the middle of this: its history has the calls in the order in
which they changed the store, and `told` has their numbers in the order in which they
told of it.  Who settles a message shows a lease, and a lease is known to clients only
when the call that gave it has come back, having told of the delivery (`Overlap.Knows`).

This is what orders the events of a message, as far as they are ordered.  Whatever
happens to a message after it was handed out happens under the lease or after somebody
settled it under the lease, hence after the delivery was told (`Overlap.Sound.after`).
Nothing alike holds of enqueuing a message and of letting it wait for another attempt:
it may be handed out before the call has told of it, and the delivery may be told first
(`Overlap.overtaken_and_missed`).
-/

namespace JobQueue

open History

/-! ## What a listener gets -/

/-- A listener gets what it has not seen, in the order in which it was told, but at most
so many of the latest events as are kept. -/
theorem Broker.follow_eq (b : Broker) (listener : Nat) :
    (b.follow listener).1 =
      b.told.reverse.drop (max (b.listeners[listener]?.getD b.told.length)
        (b.told.length - kept)) := by
  unfold follow
  generalize b.listeners[listener]?.getD b.told.length = seen
  dsimp only
  rw [List.take_take, List.reverse_take]
  by_cases late : b.told.length ≤ seen
  · rw [List.drop_of_length_le (by simp; omega), List.drop_of_length_le (by simp; omega)]
  · congr 1
    omega

/-! ## Overlapping calls -/

/-- A broker whose calls overlap. -/
structure Overlap where
  /-- The broker. -/
  broker : Broker := {}
  /-- The calls, in the order in which they changed the store. -/
  history : History := []
  /-- The numbers of the calls that were told, in the order in which they were. -/
  told : List Nat := []

namespace Overlap

variable {o o' : Overlap} {q : Request} {i j : Nat}

/-- What there is to tell of a call. -/
def event? (o : Overlap) (i : Nat) : Option Event := o.history[i]?.bind Exchange.event

/-- The delivery that a call hands out. -/
def delivery? (o : Overlap) (i : Nat) : Option Delivery := o.history[i]?.bind Exchange.delivery?

/-- All that was told, in its order. -/
def log (o : Overlap) : List Event := o.broker.told.reverse

/-- The broker after a call has changed its store. -/
def changed (o : Overlap) (q : Request) : Overlap where
  broker := { o.broker with store := (o.broker.store.perform q).store }
  history := o.history ++ [o.broker.store.exchange q]
  told := o.told

/-- The broker after a call has told its event. -/
def tell (o : Overlap) (i : Nat) (e : Event) : Overlap where
  broker := { o.broker with told := e :: o.broker.told }
  history := o.history
  told := o.told ++ [i]

/-- Whether somebody can make a call.  Nobody closes the broker, and a lease that was given
is known only when the call that gave it has told so. -/
def Knows (o : Overlap) : Request → Prop
  | .settle d _ _ => ∀ i d', o.delivery? i = some d' → d'.lease = d.lease → i ∈ o.told
  | .close => False
  | _ => True

/-- Something happens at a broker whose calls overlap. -/
inductive Step (o : Overlap) : Overlap → Prop where
  /-- A call changes the store. -/
  | changed (q : Request) (fresh : q.IsFresh o.history) (knows : o.Knows q) : Step o (o.changed q)
  /-- A call that changed the store tells of it. -/
  | told (i : Nat) (e : Event) (event : o.event? i = some e) (pending : i ∉ o.told) :
    Step o (o.tell i e)
  /-- Somebody begins to listen. -/
  | listened : Step o { o with broker := o.broker.listen.2 }
  /-- A listener gets what it has not seen. -/
  | followed (listener : Nat) : Step o { o with broker := (o.broker.follow listener).2 }

/-- Whether a broker comes about from another one, in any number of steps. -/
abbrev Later : Overlap → Overlap → Prop := Relation.ReflTransGen Step

/-- Whether a broker comes about from a new one. -/
abbrev Reached (o : Overlap) : Prop := Later {} o

/-! ## What changing and telling do -/

theorem bind_getElem?_changed {α : Type} (f : Exchange → Option α) (o : Overlap) (q : Request)
    (i : Nat) :
    (o.changed q).history[i]?.bind f =
      if i = o.history.length then f (o.broker.store.exchange q) else o.history[i]?.bind f := by
  show (o.history ++ [o.broker.store.exchange q])[i]?.bind f = _
  rcases Nat.lt_trichotomy i o.history.length with old | new | out
  · rw [List.getElem?_append_left old, if_neg (by omega)]
  · subst new
    simp
  · rw [List.getElem?_eq_none (by simp; omega), List.getElem?_eq_none (by omega),
      if_neg (by omega)]

theorem event?_changed (o : Overlap) (q : Request) (i : Nat) :
    (o.changed q).event? i =
      if i = o.history.length then (o.broker.store.exchange q).event else o.event? i :=
  bind_getElem?_changed _ o q i

theorem delivery?_changed (o : Overlap) (q : Request) (i : Nat) :
    (o.changed q).delivery? i =
      if i = o.history.length then (o.broker.store.exchange q).delivery? else o.delivery? i :=
  bind_getElem?_changed _ o q i

theorem lt_length_of_event? {e : Event} (h : o.event? i = some e) : i < o.history.length := by
  obtain ⟨x, found, -⟩ := Option.bind_eq_some_iff.mp h
  exact (List.getElem?_eq_some_iff.mp found).1

theorem lt_length_of_delivery? {d : Delivery} (h : o.delivery? i = some d) :
    i < o.history.length := by
  obtain ⟨x, found, -⟩ := Option.bind_eq_some_iff.mp h
  exact (List.getElem?_eq_some_iff.mp found).1

theorem log_tell (o : Overlap) (i : Nat) (e : Event) : (o.tell i e).log = o.log ++ [e] :=
  List.reverse_cons

/-! ## What lasts -/

/-- What holds of every broker whose calls overlap. -/
structure Sound (o : Overlap) : Prop where
  /-- The store comes about by its calls, in the order of their changes. -/
  run : JobQueue.Run o.history o.broker.store
  /-- The log has the events of the calls that were told. -/
  log_eq : o.log = o.told.filterMap o.event?
  /-- No call is told twice. -/
  nodup : o.told.Nodup
  /-- Only calls of which there is something to tell are told. -/
  isSome : ∀ i ∈ o.told, (o.event? i).isSome
  /-- A message is under the lease of a delivery until this is told. -/
  held : ∀ i d, o.delivery? i = some d →
    i ∈ o.told ∨ ∃ r, o.broker.store.record? d.job = some r ∧ r.lease = some d.lease
  /-- What happens to a message after a delivery happens after this is told. -/
  after : ∀ i j d e, i < j → o.delivery? i = some d → o.event? j = some e → e.job = d.job →
    i ∈ o.told ∧ (j ∈ o.told → [i, j].Sublist o.told)

namespace Sound

theorem lt_length (sound : o.Sound) (mem : i ∈ o.told) : i < o.history.length := by
  obtain ⟨e, event⟩ := Option.isSome_iff_exists.mp (sound.isSome i mem)
  exact lt_length_of_event? event

/-- What is told of a message under a lease is that it is settled under it. -/
theorem knows_lease (sound : o.Sound) (fresh : q.IsFresh o.history) {d : Delivery} {r : Record}
    (found : o.broker.store.record? d.job = some r) (held : r.lease = some d.lease) {e : Event}
    (event : (o.broker.store.exchange q).event = some e) (job : e.job = d.job) :
    ∃ d' v now, q = .settle d' v now ∧ d'.lease = d.lease := by
  rcases sound.run.held_perform fresh found held with ⟨-, others⟩ | ⟨d', v, now, rfl, -, lease, -⟩
  · have fresh : ∀ m now, q ≠ .enqueue d.job m now := by
      rintro m now rfl
      exact fresh (sound.run.id_mem_of_record? found)
    have none : ((o.broker.store.exchange q).moment?.filter fun x => x.delivery.job = d.job) =
        none := by
      simpa [Option.filter_eq_none_iff] using others
    have told := Store.eventOf_exchange (s := o.broker.store) fresh
    rw [event, none, Option.filter_some, if_pos (decide_eq_true job)] at told
    cases told
  · exact ⟨d', v, now, rfl, lease⟩

theorem changed (sound : o.Sound) (fresh : q.IsFresh o.history) (knows : o.Knows q) :
    (o.changed q).Sound where
  run := sound.run.call q fresh
  log_eq := by
    refine sound.log_eq.trans (List.filterMap_congr fun i mem => ?_)
    rw [event?_changed, if_neg (Nat.ne_of_lt (sound.lt_length mem))]
  nodup := sound.nodup
  isSome i mem := by
    rw [event?_changed, if_neg (Nat.ne_of_lt (sound.lt_length mem))]
    exact sound.isSome i mem
  held i d delivery := by
    rw [delivery?_changed] at delivery
    split at delivery
    · exact .inr (Store.record?_of_delivery?_exchange delivery)
    · rcases sound.held i d delivery with told | ⟨r, found, held⟩
      · exact .inl told
      · rcases sound.run.held_perform fresh found held with
          ⟨still, -⟩ | ⟨d', v, now, rfl, -, lease, -⟩
        · exact .inr ⟨r, still, held⟩
        · exact .inl (knows i d delivery lease.symm)
  after i j d e lt delivery event job := by
    have made : j < (o.changed q).history.length := lt_length_of_event? event
    have made : j < o.history.length + 1 := by simpa [Overlap.changed] using made
    rw [delivery?_changed, if_neg (by omega)] at delivery
    rw [event?_changed] at event
    split at event
    · next new =>
      refine ⟨?_, fun told => absurd (sound.lt_length told) (by omega)⟩
      rcases sound.held i d delivery with told | ⟨r, found, held⟩
      · exact told
      · obtain ⟨d', v, now, rfl, lease⟩ := sound.knows_lease fresh found held event job
        exact knows i d delivery lease.symm
    · exact sound.after i j d e lt delivery event job

theorem tell (sound : o.Sound) {e : Event} (event : o.event? i = some e) (pending : i ∉ o.told) :
    (o.tell i e).Sound where
  run := sound.run
  log_eq := by
    rw [log_tell, sound.log_eq]
    show _ = (o.told ++ [i]).filterMap o.event?
    rw [List.filterMap_append, List.filterMap_cons, event, List.filterMap_nil]
  nodup := List.nodup_append.mpr ⟨sound.nodup, by simp, by
    rintro a ha b hb rfl
    exact pending (List.mem_singleton.mp hb ▸ ha)⟩
  isSome k mem := by
    rcases List.mem_append.mp mem with old | new
    · exact sound.isSome k old
    · rw [List.mem_singleton.mp new]
      exact Option.isSome_iff_exists.mpr ⟨e, event⟩
  held k d delivery := (sound.held k d delivery).imp_left (List.mem_append_left _)
  after k j d x lt delivery event' job := by
    obtain ⟨told, order⟩ := sound.after k j d x lt delivery event' job
    refine ⟨List.mem_append_left _ told, fun mem => ?_⟩
    rcases List.mem_append.mp mem with old | new
    · exact (order old).trans (List.sublist_append_left ..)
    · rw [List.mem_singleton.mp new]
      exact (List.singleton_sublist.mpr told).append (.refl [i])

/-- Listening changes nothing else. -/
theorem of_listeners (sound : o.Sound) (listeners : List Nat) :
    Sound { o with broker := { o.broker with listeners } } :=
  { sound with }

theorem step (sound : o.Sound) (step : Step o o') : o'.Sound := by
  cases step with
  | changed q fresh knows => exact sound.changed fresh knows
  | told i e event pending => exact sound.tell event pending
  | listened => exact sound.of_listeners _
  | followed listener => exact sound.of_listeners _

end Sound

theorem Reached.sound (reached : Reached o) : o.Sound := by
  induction reached with
  | refl =>
    refine ⟨.start, rfl, .nil, by simp, fun i d delivery => ?_, fun i j d e lt delivery => ?_⟩
    · exact absurd (lt_length_of_delivery? delivery) (Nat.not_lt_zero i)
    · exact absurd (lt_length_of_delivery? delivery) (Nat.not_lt_zero i)
  | tail _ step ih => exact ih.step step

/-- What was told stays told, and calls keep their numbers. -/
theorem Later.told (later : Later o o') :
    (∃ new, o'.told = o.told ++ new) ∧ ∃ new, o'.history = o.history ++ new := by
  induction later with
  | refl => exact ⟨⟨[], by simp⟩, [], by simp⟩
  | tail _ step ih =>
    obtain ⟨⟨told, eq⟩, calls, eq'⟩ := ih
    cases step with
    | changed q => exact ⟨⟨told, eq⟩, _, by rw [Overlap.changed, eq', List.append_assoc]⟩
    | told i e => exact ⟨⟨told ++ [i], by rw [Overlap.tell, eq, List.append_assoc]⟩, calls, eq'⟩
    | listened => exact ⟨⟨told, eq⟩, calls, eq'⟩
    | followed => exact ⟨⟨told, eq⟩, calls, eq'⟩

/-- What was told before a call changed the store was told before that call. -/
theorem Later.sublist (later : Later o o') (sound : o.Sound) (told : i ∈ o.told)
    (new : o.history.length ≤ j) (told' : j ∈ o'.told) : [i, j].Sublist o'.told := by
  obtain ⟨⟨more, eq⟩, -⟩ := later.told
  rw [eq] at told' ⊢
  have fresh : j ∉ o.told := fun old => absurd (sound.lt_length old) (by omega)
  have mem := (List.mem_append.mp told').resolve_left fresh
  exact (List.singleton_sublist.mpr told).append (List.singleton_sublist.mpr mem)

/-- However calls overlap, each is told at most once, and the log has what they tell.  A
delivery is told before all that happens to its message after it, so before the verdict on
it.  What has been told is told before all that happens later.  And a listener gets what it
has not seen as it was told, but at most so many of the latest events as are kept. -/
theorem Reached.deliveries_in_order (reached : Reached o) :
    (o.log = o.told.filterMap o.event? ∧ o.told.Nodup ∧ ∀ i ∈ o.told, (o.event? i).isSome) ∧
      (∀ i j d e, i < j → o.delivery? i = some d → o.event? j = some e → e.job = d.job →
        j ∈ o.told → [i, j].Sublist o.told) ∧
      (∀ o', Later o o' → ∀ i ∈ o.told, ∀ j, o.history.length ≤ j → j ∈ o'.told →
        [i, j].Sublist o'.told) ∧
      ∀ listener, (o.broker.follow listener).1 =
        o.log.drop (max (o.broker.listeners[listener]?.getD o.log.length)
          (o.log.length - Broker.kept)) := by
  have sound := reached.sound
  refine ⟨⟨sound.log_eq, sound.nodup, sound.isSome⟩, ?_, ?_, ?_⟩
  · intro i j d e lt delivery event job told
    exact (sound.after i j d e lt delivery event job).2 told
  · intro o' later i told j new told'
    exact later.sublist sound told new told'
  · intro listener
    have length : o.log.length = o.broker.told.length := List.length_reverse
    rw [Broker.follow_eq, length]
    rfl

instance (o : Overlap) : (q : Request) → Decidable (o.Knows q)
  | .settle d _ _ =>
    decidable_of_iff (∀ i < o.history.length, ∀ d' ∈ o.delivery? i, d'.lease = d.lease → i ∈ o.told)
      ⟨fun all i d' delivery => all i (lt_length_of_delivery? delivery) d' delivery,
        fun all i _ d' delivery => all i d' delivery⟩
  | .close => .isFalse id
  | .enqueue .. | .dequeue .. | .prune _ => .isTrue trivial

/-- A letter. -/
def exampleLetter : Message where
  type := "letter"
  queue := "mail"
  envelope := []
  maxRetries := 2
  processAt := .epoch
  timeout := none

/-- A delivery of the letter. -/
def exampleDelivery : Delivery where
  job := ⟨"1"⟩
  message := exampleLetter
  attempt := 1
  lease := ⟨"x"⟩

theorem deliveries_in_order_of_example :
    ∃ o : Overlap, Reached o ∧ o.log.map Event.name = ["leased", "completed", "enqueued"] ∧
      [1, 2].Sublist o.told := by
  have reached : Reached {} := .refl
  have reached := reached.tail (.changed (.enqueue ⟨"1"⟩ exampleLetter .epoch) (by decide) trivial)
  have reached := reached.tail (.changed (.dequeue ["mail"] ⟨"x"⟩ .epoch) (by decide) trivial)
  have reached := reached.tail (.told 1 _ rfl (by decide))
  have reached := reached.tail (.changed (.settle exampleDelivery .ack .epoch) trivial (by decide))
  have reached := reached.tail (.told 2 _ rfl (by decide))
  have reached := reached.tail (.told 0 _ rfl (by decide))
  obtain ⟨-, ordered, -⟩ := Reached.deliveries_in_order reached
  exact ⟨_, reached, rfl, ordered 1 2 exampleDelivery _ (by decide) rfl rfl rfl (by decide)⟩

/-! ## What is out of order -/

/-- Whether whatever happened to a message is told in the order in which it happened. -/
def InOrder (o : Overlap) : Prop :=
  ∀ i j e e', i < j → o.event? i = some e → o.event? j = some e' → e.job = e'.job →
    j ∈ o.told → [i, j].Sublist o.told

/-- One of many letters. -/
def crowdId (n : Nat) : JobId := ⟨String.ofList (List.replicate n 'x')⟩

theorem crowdId_inj {i j : Nat} (h : crowdId i = crowdId j) : i = j := by
  have texts := String.ofList_injective (JobId.mk.inj h)
  simpa using congrArg List.length texts

/-- The broker after so many letters were enqueued, one after the other. -/
def crowd : Nat → Overlap
  | 0 => {}
  | n + 1 =>
    ((crowd n).changed (.enqueue (crowdId n) exampleLetter .epoch)).tell n
      (exampleLetter.event (crowdId n) .epoch)

/-- The events of so many letters. -/
def crowdLog (n : Nat) : List Event :=
  (List.range n).map fun i => exampleLetter.event (crowdId i) .epoch

theorem crowd_broker (n : Nat) :
    (crowd n).broker =
      { store :=
          { records := (List.range n).map fun i => .ofMessage (crowdId i) exampleLetter .epoch
            waiting := (List.range n).map fun i => { job := crowdId i, queue := "mail" } }
        told := (crowdLog n).reverse } := by
  induction n with
  | zero => rfl
  | succ n ih =>
    simp only [crowd, changed, tell, ih, crowdLog, List.range_succ, List.map_append, List.map_cons,
      List.map_nil, List.reverse_append, List.reverse_singleton]
    rfl

theorem crowd_history (n : Nat) :
    (crowd n).history.length = n ∧ ids (crowd n).history = (List.range n).map crowdId ∧
      deliveries (crowd n).history = [] := by
  induction n with
  | zero => exact ⟨rfl, rfl, rfl⟩
  | succ n ih =>
    obtain ⟨length, taken, none⟩ := ih
    have isOpen : (crowd n).broker.store.isOpen := by rw [crowd_broker]
    have enters := Store.enqueued?_exchange_of_isOpen isOpen (crowdId n) exampleLetter .epoch
    refine ⟨?_, ?_, ?_⟩
    · simp [crowd, changed, tell, length]
    · simp [crowd, changed, tell, ids_concat, taken, enters, List.range_succ]
    · simp only [crowd, changed, tell, deliveries_concat, none]
      rfl

theorem reached_crowd (n : Nat) : Reached (crowd n) := by
  induction n with
  | zero => exact .refl
  | succ n ih =>
    obtain ⟨length, taken, -⟩ := crowd_history n
    refine (ih.tail (.changed (.enqueue (crowdId n) exampleLetter .epoch) ?_ trivial)).tail
      (.told n _ ?_ fun told => ?_)
    · show crowdId n ∉ ids (crowd n).history
      rw [taken]
      intro mem
      obtain ⟨i, lt, eq⟩ := List.mem_map.mp mem
      rw [crowdId_inj eq] at lt
      exact absurd (List.mem_range.mp lt) (Nat.lt_irrefl n)
    · rw [event?_changed, if_pos length.symm, crowd_broker]
      rfl
    · exact absurd (Reached.sound ih |>.lt_length told) (by omega)

/-- The broker after the first of more letters than that was handed out. -/
def crowded (n : Nat) : Overlap :=
  ((crowd (n + 1)).changed (.dequeue ["mail"] ⟨"x"⟩ .epoch)).tell (n + 1)
    (.leased (crowdId 0) 1 .epoch)

theorem event_crowd (n : Nat) :
    ((crowd (n + 1)).broker.store.exchange (.dequeue ["mail"] ⟨"x"⟩ .epoch)).event =
      some (.leased (crowdId 0) 1 .epoch) := by
  obtain ⟨s, eq⟩ : ∃ s, s = (crowd (n + 1)).broker.store := ⟨_, rfl⟩
  obtain ⟨records, waiting, isOpen⟩ :
      (∃ rest, s.records = .ofMessage (crowdId 0) exampleLetter .epoch :: rest) ∧
        (∃ rest, s.waiting = { job := crowdId 0, queue := "mail" } :: rest) ∧ s.isOpen := by
    rw [eq, crowd_broker, List.range_succ_eq_map]
    exact ⟨⟨_, rfl⟩, ⟨_, rfl⟩, rfl⟩
  have found : s.record? (crowdId 0) = some (.ofMessage (crowdId 0) exampleLetter .epoch) := by
    obtain ⟨rest, records⟩ := records
    rw [Store.record?, records]
    exact List.find?_cons_of_pos (by simp [Record.ofMessage])
  have next : s.next? ["mail"] .epoch = some { job := crowdId 0, queue := "mail" } := by
    obtain ⟨rest, waiting⟩ := waiting
    have ready : s.isReady .epoch { job := crowdId 0, queue := "mail" } :=
      Store.isReady_iff.mpr ⟨_, found, rfl⟩
    rw [Store.next?, waiting, List.findSome?_cons, List.find?_cons_of_pos (by simp [ready])]
  rw [← eq, Store.exchange, Store.perform_dequeue,
    Store.dequeue_of_next?_eq_some isOpen ⟨"x"⟩ next found]
  rfl

theorem reached_crowded (n : Nat) : Reached (crowded n) := by
  obtain ⟨length, -, none⟩ := crowd_history (n + 1)
  have reached := reached_crowd (n + 1)
  refine (reached.tail (.changed (.dequeue ["mail"] ⟨"x"⟩ .epoch) ?_ trivial)).tail
    (.told (n + 1) _ ?_ fun told => ?_)
  · simp [Request.IsFresh, leases, none]
  · rw [event?_changed, if_pos length.symm, event_crowd]
  · exact absurd (Reached.sound reached |>.lt_length told) (by omega)

theorem log_crowded (n : Nat) :
    (crowded n).log = crowdLog (n + 1) ++ [.leased (crowdId 0) 1 .epoch] := by
  rw [crowded, log_tell, log, changed, crowd_broker, List.reverse_reverse]

/-- A letter may be handed out when nobody can read any more that it was enqueued. -/
theorem not_mem_follow_crowded {n : Nat} (many : Broker.kept ≤ n) :
    .leased (crowdId 0) 1 .epoch ∈ ((crowded n).broker.follow 0).1 ∧
      exampleLetter.event (crowdId 0) .epoch ∉ ((crowded n).broker.follow 0).1 := by
  have unread : ((crowded n).broker.follow 0).1 =
      (crowdLog (n + 1)).drop (n + 2 - Broker.kept) ++ [.leased (crowdId 0) 1 .epoch] := by
    have listeners : (crowded n).broker.listeners = [0] := by
      simp only [crowded, tell, changed, crowd_broker]
    have length : (crowdLog (n + 1)).length = n + 1 := by simp [crowdLog]
    have told : (crowded n).broker.told.length = n + 2 := by
      rw [← List.length_reverse, ← log, log_crowded, List.length_append, length,
        List.length_singleton]
    have kept : 0 < Broker.kept := by decide
    rw [Broker.follow_eq, ← log, log_crowded, listeners, told, List.getElem?_cons_zero,
      Option.getD_some, Nat.zero_max, List.drop_append_of_le_length (by omega)]
  rw [unread]
  refine ⟨by simp, fun mem => ?_⟩
  rcases List.mem_append.mp mem with mem | mem
  · obtain ⟨i, lt, eq⟩ := List.mem_drop_iff_getElem.mp mem
    simp only [crowdLog, List.getElem_map, List.getElem_range, Message.event,
      Event.enqueued.injEq, and_true] at eq
    have first := crowdId_inj eq
    omega
  · cases List.mem_singleton.mp mem

/-- A message may be told to be handed out before it is told to be enqueued, and before it is
told to wait for this attempt.  And even where calls do not overlap, a listener that is late
reads that a message was handed out, and nowhere that it was enqueued. -/
theorem overtaken_and_missed :
    (∃ o : Overlap, Reached o ∧
        o.log.map Event.name = ["leased", "leased", "retrying", "enqueued"] ∧
        (∀ e ∈ o.log, e.job = ⟨"1"⟩) ∧ ¬ o.InOrder) ∧
      ∃ o : Overlap, Reached o ∧ o.log = crowdLog 1025 ++ [.leased (crowdId 0) 1 .epoch] ∧
        .leased (crowdId 0) 1 .epoch ∈ (o.broker.follow 0).1 ∧
        exampleLetter.event (crowdId 0) .epoch ∉ (o.broker.follow 0).1 := by
  refine ⟨?_, crowded 1024, reached_crowded 1024, log_crowded 1024,
    not_mem_follow_crowded (Nat.le_refl 1024)⟩
  have reached : Reached {} := .refl
  have reached := reached.tail (.changed (.enqueue ⟨"1"⟩ exampleLetter .epoch) (by decide) trivial)
  -- another client is quicker
  have reached := reached.tail (.changed (.dequeue ["mail"] ⟨"x"⟩ .epoch) (by decide) trivial)
  have reached := reached.tail (.told 1 _ rfl (by decide))
  have reached := reached.tail
    (.changed (.settle exampleDelivery (.retry .epoch "late") .epoch) trivial (by decide))
  -- and once more
  have reached := reached.tail (.changed (.dequeue ["mail"] ⟨"y"⟩ .epoch) (by decide) trivial)
  have reached := reached.tail (.told 3 _ rfl (by decide))
  have reached := reached.tail (.told 2 _ rfl (by decide))
  have reached := reached.tail (.told 0 _ rfl (by decide))
  refine ⟨_, reached, rfl, by decide, fun inOrder => ?_⟩
  have order := inOrder 0 1 _ _ (by decide) rfl rfl rfl (by decide)
  revert order
  decide

end Overlap

end JobQueue
