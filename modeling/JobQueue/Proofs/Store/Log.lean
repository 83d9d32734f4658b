import JobQueue.Proofs.Store.WellFormed

/-!
# The log of a store

A store tells an event of each message that it takes, hands out and settles, and of
nothing else (`Store.event_exchange`).  So what is told of one message are its moments
after its being taken (`Run.eventsOf_eq`), and who only listens can follow it.

What a listener knows of a message is its `Portrait`, which is drawn one event after the
other and does not come about if an event is out of its turn (`Portrait.next`).  Two
things carry the result.  Events that give a portrait come in the order that they should
(`Portrait.Reads`), whoever tells them; and the moments of a life give the portrait of
its record (`Life.ofEvents`), since a record is handed out only while it waits and
settled only while it is active.
-/

namespace JobQueue

open History

/-! ## What is told of a message -/

/-- What is told of a moment. -/
def Moment.event : Moment → Event
  | leased d now => .leased d.job d.attempt now
  | settled d v now => v.event d.job now

/-- What is told of a message that is taken. -/
def Message.event (id : JobId) (m : Message) (now : Instant) : Event :=
  .enqueued id m.queue m.type now

/-- What was told of a message. -/
def History.eventsOf (h : History) (id : JobId) : List Event :=
  (events h).filter fun e => e.job = id

theorem History.eventsOf_concat (h : History) (e : Exchange) (id : JobId) :
    eventsOf (h ++ [e]) id = eventsOf h id ++ (e.event.filter fun x => x.job = id).toList := by
  rw [eventsOf, events_concat, List.filter_append]
  congr 1
  cases e.event with
  | none => rfl
  | some x => by_cases hx : x.job = id <;> simp [Option.filter, hx]

/-- Whether a call comes to nothing that is told: it fails, finds nothing to hand out,
forgets records, or closes the store. -/
def Exchange.IsSilent (e : Exchange) : Prop :=
  (∃ error, e.response = .refused error) ∨ e.response = .dequeued none ∨
    (∃ cutoff, e.request = .prune cutoff) ∨ e.request = .close

namespace Store

variable {s : Store} {q : Request}

/-- A store tells of a message that it takes and of a moment, and of nothing else. -/
theorem event_exchange (s : Store) (q : Request) :
    (s.exchange q).event =
      ((s.exchange q).enqueued?.map fun x => x.2.1.event x.1 x.2.2).or
        ((s.exchange q).moment?.map Moment.event) := by
  have exchange : s.exchange q = ⟨q, (s.perform q).answer, (s.perform q).event⟩ := rfl
  have effect := s.perform_effect q
  rw [exchange]
  generalize s.perform q = step at effect ⊢
  cases effect with
  | refused => cases q <;> rfl
  | _ => rfl

/-- The calls of which nothing is told. -/
theorem event_eq_none_iff (s : Store) (q : Request) :
    (s.exchange q).event = none ↔ (s.exchange q).IsSilent := by
  have exchange : s.exchange q = ⟨q, (s.perform q).answer, (s.perform q).event⟩ := rfl
  have effect := s.perform_effect q
  rw [exchange]
  generalize s.perform q = step at effect ⊢
  cases effect with
  | refused => simp [Exchange.IsSilent]
  | enqueued => simp [Exchange.IsSilent]
  | nothing => simp [Exchange.IsSilent]
  | leased => simp [Exchange.IsSilent]
  | settled => simp [Exchange.IsSilent]
  | pruned => simp [Exchange.IsSilent]
  | closed => simp [Exchange.IsSilent]

/-- What a store tells of a message that it does not take. -/
theorem eventOf_exchange {id : JobId} (others : ∀ m now, q ≠ .enqueue id m now) :
    ((s.exchange q).event.filter fun e => e.job = id) =
      ((s.exchange q).moment?.filter fun x => x.delivery.job = id).map Moment.event := by
  have moment : ∀ x : Moment, x.event.job = x.delivery.job := by
    intro x
    cases x with
    | leased => rfl
    | settled d v now => cases v <;> rfl
  rw [event_exchange]
  cases taken : (s.exchange q).enqueued? with
  | none =>
    cases (s.exchange q).moment? with
    | none => rfl
    | some x => by_cases hx : x.delivery.job = id <;> simp [Option.filter, moment, hx]
  | some x =>
    obtain ⟨id', m, now⟩ := x
    cases enqueued?_exchange taken
    have other : id' ≠ id := by
      rintro rfl
      exact others m now rfl
    have none : (s.exchange (.enqueue id' m now)).moment? = none := rfl
    simp [none, Option.filter, Message.event, Event.job, other]

end Store

namespace Run

variable {h : History} {s : Store}

theorem event_eq_none_iff (run : Run h s) :
    ∀ e ∈ h, e.event = none ↔ e.IsSilent := by
  induction run with
  | start => simp
  | call run q fresh ih =>
    intro e mem
    rcases List.mem_append.mp mem with old | new
    · exact ih e old
    · rw [List.mem_singleton] at new
      subst new
      exact Store.event_eq_none_iff _ q

/-- Nothing is told of a message that was not taken. -/
theorem eventsOf_eq_nil (run : Run h s) {id : JobId} (unknown : id ∉ ids h) :
    eventsOf h id = [] := by
  induction run with
  | start => rfl
  | @call h s run q fresh ih =>
    have moments := (run.call q fresh).momentsOf_eq_nil unknown
    rw [momentsOf_concat, List.append_eq_nil_iff, Option.toList_eq_nil_iff] at moments
    rw [ids_concat, List.mem_append, not_or] at unknown
    rw [eventsOf_concat, ih unknown.1, List.nil_append, Option.toList_eq_nil_iff]
    by_cases others : ∀ m now, q ≠ .enqueue id m now
    · rw [Store.eventOf_exchange others, moments.2, Option.map_none]
    · -- a message that is not taken is refused
      push Not at others
      obtain ⟨m, now, rfl⟩ := others
      rw [Store.event_exchange]
      have none : (s.exchange (.enqueue id m now)).moment? = none := rfl
      have refused : (s.exchange (.enqueue id m now)).enqueued? = .none := by
        rw [Option.eq_none_iff_forall_ne_some]
        intro x taken
        refine unknown.2 (Option.mem_toList.mpr ?_)
        have request := Store.enqueued?_exchange taken
        rw [taken, (Request.enqueue.inj request).1]
        rfl
      rw [refused, none]
      rfl

/-- After a message was taken, its moments are told and nothing else. -/
theorem eventsOf_eq (run : Run h s) {id : JobId} {m : Message} {born : Instant}
    (taken : (id, m, born) ∈ enqueued h) :
    eventsOf h id = m.event id born :: (momentsOf h id).map Moment.event := by
  induction run with
  | start => cases taken
  | @call h s run q fresh ih =>
    rw [enqueued_concat, List.mem_append] at taken
    rw [eventsOf_concat, momentsOf_concat, List.map_append]
    rcases taken with before | now
    · have others : ∀ m now, q ≠ .enqueue id m now := by
        rintro m now rfl
        exact fresh (List.mem_map_of_mem before)
      rw [Store.eventOf_exchange others, ih before, List.cons_append, Option.toList_map]
    · rw [Option.mem_toList] at now
      have event := s.event_exchange q
      cases Store.enqueued?_exchange now
      have none : (s.exchange (.enqueue id m born)).moment? = none := rfl
      rw [now, Option.map_some, Option.some_or] at event
      rw [run.eventsOf_eq_nil fresh, run.momentsOf_eq_nil fresh, event, none]
      simp [Option.filter, Message.event, Event.job]

end Run

/-! ## Portraits -/

/-- Where a message stands for who listens. -/
inductive Standing where
  /-- It waits for its first attempt. -/
  | waiting
  /-- It is held by a worker. -/
  | active
  /-- It waits for another attempt. -/
  | retrying (retryAt : Instant)
  /-- It is done. -/
  | completed
  /-- It was given up. -/
  | archived (error : String)
deriving DecidableEq, Repr

namespace Standing

/-- Whether the message may be handed out next. -/
def isWaiting : Standing → Bool
  | waiting | retrying _ => true
  | _ => false

/-- Whether nothing follows. -/
def isTerminal : Standing → Bool
  | completed | archived _ => true
  | _ => false

/-- The names of the events since the message waited last. -/
def ending : Standing → List String
  | waiting | retrying _ => []
  | active => ["leased"]
  | completed => ["leased", "completed"]
  | archived _ => ["leased", "archived"]

end Standing

/-- What who listens knows of a message. -/
structure Portrait where
  /-- The queue of the message. -/
  queue : String
  /-- The tag of the job. -/
  type : String
  /-- How often the message was handed out. -/
  attempt : UInt32
  /-- How the last attempt failed. -/
  lastError : Option String
  /-- Where the message stands. -/
  standing : Standing
deriving DecidableEq, Repr

namespace Portrait

variable {p p' : Portrait} {e : Event} {es : List Event}

/-- The portrait of a new message, which is announced before anything else. -/
def begin : Event → Option Portrait
  | .enqueued _ queue type _ =>
    some { queue, type, attempt := 0, lastError := none, standing := .waiting }
  | _ => none

/-- The portrait after another event, if this is its turn: a message that waits is
handed out for its next attempt, and one that is active is settled. -/
def next (p : Portrait) : Event → Option Portrait
  | .enqueued .. => none
  | .leased _ attempt _ =>
    if p.standing.isWaiting ∧ attempt = p.attempt + 1 then
      some { p with attempt, standing := .active }
    else none
  | .retrying _ retryAt error _ =>
    if p.standing = .active then
      some { p with lastError := some error, standing := .retrying retryAt }
    else none
  | .completed _ _ => if p.standing = .active then some { p with standing := .completed } else none
  | .archived _ error _ =>
    if p.standing = .active then
      some { p with lastError := some error, standing := .archived error }
    else none

/-- The portrait of a message after all that was told of it. -/
def ofEvents : List Event → Option Portrait
  | [] => none
  | e :: rest => (begin e).bind fun p => rest.foldlM next p

theorem ofEvents_concat (h : ofEvents es = some p) : ofEvents (es ++ [e]) = p.next e := by
  cases es with
  | nil => cases h
  | cons first rest =>
    have h : ((begin first).bind fun p => rest.foldlM next p) = some p := h
    show ((begin first).bind fun p => (rest ++ [e]).foldlM next p) = p.next e
    cases begins : begin first with
    | none =>
      rw [begins] at h
      cases h
    | some p₀ =>
      rw [begins, Option.bind_some] at h
      rw [Option.bind_some, List.foldlM_append, h]
      exact Option.bind_fun_some _

/-- What holds of new portraits and stays so with each event holds of all portraits. -/
theorem ofEvents_induct {P : List Event → Portrait → Prop}
    (begins : ∀ e p, begin e = some p → P [e] p)
    (goes : ∀ es p e p', P es p → p.next e = some p' → P (es ++ [e]) p')
    (h : ofEvents es = some p) : P es p := by
  induction es using List.reverseRecOn generalizing p with
  | nil => cases h
  | append_singleton es e ih =>
    cases before : ofEvents es with
    | some p₀ =>
      rw [ofEvents_concat before] at h
      exact goes es p₀ e p (ih before) h
    | none =>
      cases es with
      | nil => exact begins e p ((Option.bind_fun_some (begin e)).symm.trans h)
      | cons first rest =>
        have before : ((begin first).bind fun p => rest.foldlM next p) = none := before
        have h : ((begin first).bind fun p => (rest ++ [e]).foldlM next p) = some p := h
        cases first with
        | enqueued _ queue type _ =>
          rw [begin, Option.bind_some] at before h
          rw [List.foldlM_append, before] at h
          cases h
        | _ => cases h

end Portrait

/-! ### The order of events -/

/-- The attempt that an event tells of. -/
def Event.attempt? : Event → Option UInt32
  | leased _ attempt _ => some attempt
  | _ => none

/-- In which order events are told that lead to a portrait. -/
structure Portrait.Reads (es : List Event) (p : Portrait) : Prop where
  /-- After it was enqueued, a message is handed out and waits for another attempt, by
  turns; at last it may be handed out, and then be done or given up. -/
  names : ∃ n, es.map Event.name =
    "enqueued" :: ((List.replicate n ["leased", "retrying"]).flatten ++ p.standing.ending)
  /-- The attempts are counted from 1. -/
  attempts : ∃ n, es.filterMap Event.attempt? = (List.range' 1 n).map UInt32.ofNat ∧
    p.attempt = UInt32.ofNat n

namespace Portrait

variable {p p' : Portrait} {e : Event} {es : List Event}

/-- An event in its turn goes on with what was told. -/
theorem Reads.next (reads : Reads es p) (h : p.next e = some p') : Reads (es ++ [e]) p' := by
  obtain ⟨⟨n, names⟩, k, attempts, count⟩ := reads
  have turn : (List.replicate (n + 1) ["leased", "retrying"]).flatten =
      (List.replicate n ["leased", "retrying"]).flatten ++ ["leased", "retrying"] := by
    rw [List.replicate_succ', List.flatten_append, List.flatten_singleton]
  cases e with
  | enqueued => cases h
  | leased id attempt now =>
    simp only [Portrait.next, Option.ite_none_right_eq_some, Option.some.injEq] at h
    obtain ⟨⟨waits, rfl⟩, rfl⟩ := h
    have none : p.standing.ending = [] := by
      cases hs : p.standing <;> simp [Standing.isWaiting, Standing.ending, hs] at waits ⊢
    refine ⟨⟨n, ?_⟩, k + 1, ?_, ?_⟩
    · simp [names, none, Event.name]
      rfl
    · simp [attempts, count, Event.attempt?, List.range'_concat, Nat.add_comm 1 k]
    · simp [count]
  | retrying id retryAt error now =>
    simp only [Portrait.next, Option.ite_none_right_eq_some, Option.some.injEq] at h
    obtain ⟨active, rfl⟩ := h
    refine ⟨⟨n + 1, ?_⟩, k, ?_, count⟩
    · simp [names, active, turn, Standing.ending, Event.name]
    · simp [attempts, Event.attempt?]
  | completed id now =>
    simp only [Portrait.next, Option.ite_none_right_eq_some, Option.some.injEq] at h
    obtain ⟨active, rfl⟩ := h
    refine ⟨⟨n, ?_⟩, k, ?_, count⟩
    · simp [names, active, Standing.ending, Event.name]
    · simp [attempts, Event.attempt?]
  | archived id error now =>
    simp only [Portrait.next, Option.ite_none_right_eq_some, Option.some.injEq] at h
    obtain ⟨active, rfl⟩ := h
    refine ⟨⟨n, ?_⟩, k, ?_, count⟩
    · simp [names, active, Standing.ending, Event.name]
    · simp [attempts, Event.attempt?]

/-- Events that give a portrait come in their order. -/
theorem reads_of_ofEvents (h : ofEvents es = some p) : Reads es p := by
  refine ofEvents_induct ?_ (fun es p e p' reads h => reads.next h) h
  intro e p h
  cases e with
  | enqueued id queue type now =>
    cases h
    exact ⟨⟨0, rfl⟩, 0, rfl, rfl⟩
  | _ => cases h

end Portrait

/-! ## Records and their portraits -/

/-- Where a message stands, without the times of its clock. -/
def Status.standing : Status → Standing
  | scheduled | pending => .waiting
  | active => .active
  | retrying retryAt => .retrying retryAt
  | completed _ => .completed
  | archived _ error => .archived error

theorem Status.isWaiting_standing (st : Status) : st.standing.isWaiting = st.isWaiting := by
  cases st <;> rfl

theorem Status.isTerminal_standing (st : Status) : st.standing.isTerminal = st.isTerminal := by
  cases st <;> rfl

/-- What a listener should know of the message of a record. -/
def Record.portrait (r : Record) : Portrait where
  queue := r.message.queue
  type := r.message.type
  attempt := r.attempt
  lastError := r.lastError
  standing := r.status.standing

theorem Record.portrait_ofMessage (id : JobId) (m : Message) (now : Instant) :
    Portrait.begin (m.event id now) = some (Record.ofMessage id m now).portrait := by
  unfold Record.portrait Record.ofMessage
  split <;> rfl

theorem Record.portrait_start {r : Record} (waits : r.status.isWaiting) (lease : LeaseToken)
    (now : Instant) :
    r.portrait.next (Moment.leased ((r.start lease now).delivery lease) now).event =
      some (r.start lease now).portrait := by
  have waits : r.portrait.standing.isWaiting := r.status.isWaiting_standing.trans waits
  exact if_pos ⟨waits, rfl⟩

theorem Record.portrait_settle {r : Record} (active : r.status = .active) (d : Delivery)
    (v : Verdict) (now : Instant) :
    r.portrait.next (Moment.settled d v now).event = some (r.settle now v).portrait := by
  have active : r.portrait.standing = .active := congrArg Status.standing active
  cases v with
  | ack => exact if_pos active
  | retry => exact if_pos active
  | archive => exact if_pos active

/-- Who is told of the moments of a message knows its record. -/
theorem Life.ofEvents {id : JobId} {m : Message} {born : Instant} {ms : List Moment} {r : Record}
    (life : Life id m born ms r) :
    Portrait.ofEvents (m.event id born :: ms.map Moment.event) = some r.portrait := by
  induction life with
  | fresh => exact (Option.bind_some ..).trans (Record.portrait_ofMessage id m born)
  | @leased ms r life lease now ready ih =>
    rw [List.map_append, ← List.cons_append]
    refine (Portrait.ofEvents_concat ih).trans ?_
    exact Record.portrait_start (Record.isWaiting_of_isDeliverable ready) lease now
  | @settled ms r life d v now held ih =>
    rw [List.map_append, ← List.cons_append]
    refine (Portrait.ofEvents_concat ih).trans ?_
    exact Record.portrait_settle (life.lease_isSome_iff.mp (by rw [held]; rfl)) d v now

/-- What was told of a message that was taken gives its portrait.  This is that of its
record, and of a message that is over if there is none. -/
theorem Run.ofEvents {h : History} {s : Store} (run : Run h s) {id : JobId} (taken : id ∈ ids h) :
    ∃ p, Portrait.ofEvents (eventsOf h id) = some p ∧
      (∀ r, s.record? id = some r → r.portrait = p) ∧
      (s.record? id = none → p.standing.isTerminal) := by
  obtain ⟨⟨_, m, born⟩, mem, rfl⟩ := List.mem_map.mp taken
  obtain ⟨r, life, knows⟩ := run.life mem
  rw [run.eventsOf_eq mem]
  refine ⟨r.portrait, life.ofEvents, ?_, ?_⟩
  · intro r' found
    rw [knows.eq_of_record? found]
  · intro gone
    rcases knows with found | ⟨-, ended⟩
    · rw [gone] at found
      cases found
    · exact r.status.isTerminal_standing.trans ended

end JobQueue
