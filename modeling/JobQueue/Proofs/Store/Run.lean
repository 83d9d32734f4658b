import JobQueue.Proofs.Store.Calls

/-!
# Runs of a store

A history is a list of calls with their answers, in the order in which they were
made.  A `Run` is a history that a new store can have, with the store that it
leads to: the calls come in any order, from any number of clients, under the one
condition that identifiers and leases are fresh (`Request.IsFresh`).

The functions on histories here read them: the messages that were taken, the
deliveries that were handed out, the verdicts that were accepted, and what was told.
-/

namespace JobQueue

/-- What stands in a list that grew at its end is the last entry, or stood there
before. -/
theorem concat_cases {α : Type} {l before after : List α} {x y : α}
    (eq : l ++ [y] = before ++ x :: after) :
    (before = l ∧ x = y ∧ after = []) ∨
      ∃ rest, after = rest ++ [y] ∧ l = before ++ x :: rest := by
  rcases List.eq_nil_or_concat after with rfl | ⟨rest, z, rfl⟩
  · obtain ⟨rfl, last⟩ := List.append_inj' eq rfl
    cases last
    exact .inl ⟨rfl, rfl, rfl⟩
  · rw [List.concat_eq_append] at eq ⊢
    rw [← List.cons_append, ← List.append_assoc] at eq
    obtain ⟨rfl, last⟩ := List.append_inj' eq rfl
    cases last
    exact .inr ⟨rest, rfl, rfl⟩

/-- A call with its answer and what was told of it. -/
structure Exchange where
  /-- The call. -/
  request : Request
  /-- The answer. -/
  response : Response
  /-- What was told. -/
  event : Option Event
deriving DecidableEq

/-- Calls in the order in which they were made. -/
abbrev History := List Exchange

namespace Exchange

/-- The message that was taken, and when. -/
def enqueued? : Exchange → Option (JobId × Message × Instant)
  | { request := .enqueue id m now, response := .enqueued _, .. } => some (id, m, now)
  | _ => none

/-- The delivery that was handed out. -/
def delivery? : Exchange → Option Delivery
  | { request := .dequeue _ _ _, response := .dequeued d, .. } => d
  | _ => none

/-- The verdict that was accepted, with its delivery. -/
def verdict? : Exchange → Option (Delivery × Verdict)
  | { request := .settle d v _, response := .settled, .. } => some (d, v)
  | _ => none

end Exchange

namespace History

/-- The messages that were taken, each with its identifier and when. -/
def enqueued (h : History) : List (JobId × Message × Instant) := h.filterMap Exchange.enqueued?

/-- The identifiers of the messages that were taken. -/
def ids (h : History) : List JobId := (enqueued h).map Prod.fst

/-- The deliveries that were handed out. -/
def deliveries (h : History) : List Delivery := h.filterMap Exchange.delivery?

/-- The leases that were given. -/
def leases (h : History) : List LeaseToken := (deliveries h).map Delivery.lease

/-- The deliveries of a message. -/
def deliveriesOf (h : History) (id : JobId) : List Delivery :=
  (deliveries h).filter fun d => d.job = id

/-- The verdicts that were accepted. -/
def verdicts (h : History) : List (Delivery × Verdict) := h.filterMap Exchange.verdict?

/-- The verdicts on a message that were accepted. -/
def verdictsOf (h : History) (id : JobId) : List (Delivery × Verdict) :=
  (verdicts h).filter fun v => v.1.job = id

/-- What was told of the calls. -/
def events (h : History) : List Event := h.filterMap Exchange.event

/-- Whether every message was handed out so seldom that its attempts can be
counted. -/
def Countable (h : History) : Prop := ∀ id, (deliveriesOf h id).length < UInt32.size

/-- Whether every call of a history meets a condition on the calls before it. -/
def Always (P : History → Request → Prop) (h : History) : Prop :=
  ∀ before e after, h = before ++ e :: after → P before e.request

theorem enqueued_concat (h : History) (e : Exchange) :
    enqueued (h ++ [e]) = enqueued h ++ e.enqueued?.toList := by
  cases he : e.enqueued? <;> simp [enqueued, he]

theorem ids_append (h₁ h₂ : History) : ids (h₁ ++ h₂) = ids h₁ ++ ids h₂ := by
  simp [ids, enqueued]

theorem ids_concat (h : History) (e : Exchange) :
    ids (h ++ [e]) = ids h ++ (e.enqueued?.map Prod.fst).toList := by
  cases he : e.enqueued? <;> simp [ids, enqueued_concat, he]

theorem deliveries_concat (h : History) (e : Exchange) :
    deliveries (h ++ [e]) = deliveries h ++ e.delivery?.toList := by
  cases he : e.delivery? <;> simp [deliveries, he]

/-- What was handed out stays so. -/
theorem mem_deliveries_append {h : History} {d : Delivery} (mem : d ∈ deliveries h)
    (later : History) : d ∈ deliveries (h ++ later) := by
  unfold deliveries at mem ⊢
  rw [List.filterMap_append]
  exact List.mem_append_left _ mem

theorem mem_deliveries_concat {h : History} {e : Exchange} {d : Delivery} :
    d ∈ deliveries (h ++ [e]) ↔ d ∈ deliveries h ∨ e.delivery? = some d := by
  rw [deliveries_concat, List.mem_append, Option.mem_toList]

theorem verdicts_append (h₁ h₂ : History) : verdicts (h₁ ++ h₂) = verdicts h₁ ++ verdicts h₂ :=
  List.filterMap_append

theorem verdicts_concat (h : History) (e : Exchange) :
    verdicts (h ++ [e]) = verdicts h ++ e.verdict?.toList := by
  cases he : e.verdict? <;> simp [verdicts, he]

theorem events_concat (h : History) (e : Exchange) :
    events (h ++ [e]) = events h ++ e.event.toList := by
  cases he : e.event <;> simp [events, he]

theorem deliveriesOf_append (h₁ h₂ : History) (id : JobId) :
    deliveriesOf (h₁ ++ h₂) id = deliveriesOf h₁ id ++ deliveriesOf h₂ id := by
  simp [deliveriesOf, deliveries]

theorem deliveriesOf_concat (h : History) (e : Exchange) (id : JobId) :
    deliveriesOf (h ++ [e]) id =
      deliveriesOf h id ++ (e.delivery?.filter fun d => d.job = id).toList := by
  rw [deliveriesOf, deliveries_concat, List.filter_append]
  congr 1
  cases e.delivery? with
  | none => rfl
  | some d => by_cases hd : d.job = id <;> simp [Option.filter, hd]

/-- A history that is short enough is countable. -/
theorem Countable.of_length {h : History} (few : h.length < UInt32.size) : Countable h := by
  intro id
  have hd : (deliveriesOf h id).length ≤ (deliveries h).length := List.length_filter_le ..
  have hh : (deliveries h).length ≤ h.length := List.length_filterMap_le ..
  omega

theorem always_concat {P : History → Request → Prop} {h : History} {e : Exchange} :
    Always P (h ++ [e]) ↔ Always P h ∧ P h e.request := by
  constructor
  · intro all
    refine ⟨?_, all h e [] rfl⟩
    rintro before x after rfl
    exact all before x (after ++ [e]) (by simp)
  · rintro ⟨all, last⟩ before x after eq
    rcases concat_cases eq with ⟨rfl, rfl, -⟩ | ⟨rest, -, rfl⟩
    · exact last
    · exact all before x rest rfl

theorem always_iff_take {P : History → Request → Prop} {h : History} :
    Always P h ↔ ∀ i (hi : i < h.length), P (h.take i) h[i].request := by
  constructor
  · intro all i hi
    refine all _ h[i] (h.drop (i + 1)) ?_
    rw [List.getElem_cons_drop, List.take_append_drop]
  · rintro all before e after rfl
    simpa using all before.length (by simp)

end History

open History

/-- Whether a call brings an identifier or a lease that no earlier call has used. -/
def Request.IsFresh (h : History) : Request → Prop
  | enqueue id _ _ => id ∉ ids h
  | dequeue _ lease _ => lease ∉ leases h
  | _ => True

/-- Whether a call settles only what was handed out before, however long ago. -/
def Request.IsGenuine (h : History) : Request → Prop
  | settle d _ _ => d ∈ deliveries h
  | _ => True

/-- A call of a store, as a history has it. -/
def Store.exchange (s : Store) (q : Request) : Exchange where
  request := q
  response := (s.perform q).answer
  event := (s.perform q).event

/-- The histories of a new store, each with the store that it leads to. -/
inductive Run : History → Store → Prop where
  /-- Nobody has called. -/
  | start : Run [] {}
  /-- Somebody calls. -/
  | call {h : History} {s : Store} (run : Run h s) (q : Request) (fresh : q.IsFresh h) :
    Run (h ++ [s.exchange q]) (s.perform q).store

/-! ## Replays -/

instance (h : History) : (q : Request) → Decidable (q.IsFresh h)
  | .enqueue id _ _ => inferInstanceAs (Decidable (id ∉ ids h))
  | .dequeue _ lease _ => inferInstanceAs (Decidable (lease ∉ leases h))
  | .settle .. | .prune _ | .close => .isTrue trivial

instance (h : History) : (q : Request) → Decidable (q.IsGenuine h)
  | .settle d _ _ => inferInstanceAs (Decidable (d ∈ deliveries h))
  | .enqueue .. | .dequeue .. | .prune _ | .close => .isTrue trivial

instance (P : History → Request → Prop) [∀ h q, Decidable (P h q)] (h : History) :
    Decidable (Always P h) :=
  decidable_of_iff _ always_iff_take.symm

/-- Make some calls of a store with a history, if all of them are fresh. -/
def replayFrom : History × Store → List Request → Option (History × Store)
  | p, [] => some p
  | (h, s), q :: rest =>
    if q.IsFresh h then replayFrom (h ++ [s.exchange q], (s.perform q).store) rest else none

/-- Make some calls of a new store. -/
def replay (qs : List Request) : Option (History × Store) := replayFrom ([], {}) qs

theorem Run.of_replayFrom {qs : List Request} {p p' : History × Store} (run : Run p.1 p.2)
    (h : replayFrom p qs = some p') : Run p'.1 p'.2 := by
  induction qs generalizing p with
  | nil =>
    cases h
    exact run
  | cons q rest ih =>
    unfold replayFrom at h
    split at h
    · next fresh => exact ih (run.call q fresh) h
    · cases h

/-- What a replay gives is a run. -/
theorem Run.of_replay {qs : List Request} {h : History} {s : Store}
    (eq : replay qs = some (h, s)) : Run h s :=
  .of_replayFrom (p := ([], {})) .start eq

/-- Two messages on two queues, of which one is handed out, retried, handed out again,
and given up, after a stale verdict on it. -/
def exampleRequests : List Request :=
  let letter (queue : String) : Message :=
    { type := "letter", queue, envelope := [], maxRetries := 2, processAt := .epoch
      timeout := none }
  let first (attempt : UInt32) (lease : String) : Delivery :=
    { job := ⟨"1"⟩, message := letter "mail", attempt, lease := ⟨lease⟩ }
  [.enqueue ⟨"1"⟩ (letter "mail") .epoch, .enqueue ⟨"2"⟩ (letter "post") .epoch,
   .dequeue ["none", "mail"] ⟨"x"⟩ .epoch, .settle (first 1 "x") (.retry .epoch "late") .epoch,
   .dequeue ["mail"] ⟨"y"⟩ .epoch, .settle (first 1 "x") .ack .epoch,
   .settle (first 2 "y") (.archive "never") .epoch]

/-! ## What an exchange shows -/

namespace Store

variable {s : Store} {q : Request}

theorem enqueued?_exchange {x : JobId × Message × Instant}
    (h : (s.exchange q).enqueued? = some x) : q = .enqueue x.1 x.2.1 x.2.2 := by
  unfold Exchange.enqueued? exchange at h
  split at h
  · next he =>
    cases h
    rw [Exchange.mk.injEq] at he
    exact he.1
  · cases h

theorem enqueued?_exchange_of_isOpen (isOpen : s.isOpen) (id : JobId) (m : Message)
    (now : Instant) : (s.exchange (.enqueue id m now)).enqueued? = some (id, m, now) := by
  simp only [exchange, perform, enqueue_of_isOpen isOpen]
  rfl

/-- A new message has its record. -/
theorem record?_of_enqueued?_exchange {id : JobId} {m : Message} {now : Instant}
    (h : (s.exchange q).enqueued? = some (id, m, now)) (absent : s.record? id = none) :
    (s.perform q).store.record? id = some (.ofMessage id m now) := by
  cases enqueued?_exchange h
  unfold exchange at h
  have effect := s.perform_effect (.enqueue id m now)
  generalize s.perform (.enqueue id m now) = step at effect h ⊢
  cases effect with
  | refused => cases h
  | enqueued => rw [record?_enqueued, absent, if_pos rfl, Option.none_or]

theorem delivery?_of_dequeued {queues : List String} {lease : LeaseToken} {now : Instant}
    {d : Delivery}
    (answer : (s.perform (.dequeue queues lease now)).answer = .dequeued (some d)) :
    (s.exchange (.dequeue queues lease now)).delivery? = some d := by
  rw [exchange, answer]
  rfl

theorem dequeued_of_delivery? {queues : List String} {lease : LeaseToken} {now : Instant}
    {d : Delivery} (h : (s.exchange (.dequeue queues lease now)).delivery? = some d) :
    (s.perform (.dequeue queues lease now)).answer = .dequeued (some d) := by
  unfold exchange at h
  cases answer : (s.perform (.dequeue queues lease now)).answer with
  | dequeued d' =>
    rw [answer] at h
    exact congrArg Response.dequeued h
  | _ =>
    rw [answer] at h
    cases h

theorem delivery?_exchange {d : Delivery} (h : (s.exchange q).delivery? = some d) :
    ∃ queues now t r, q = .dequeue queues d.lease now ∧ s.next? queues now = some t ∧
      s.record? t.job = some r ∧ d = (r.start d.lease now).delivery d.lease := by
  unfold exchange at h
  have effect := s.perform_effect q
  generalize s.perform q = step at effect h
  cases effect with
  | leased isOpen lease next found ready =>
    cases h
    exact ⟨_, _, _, _, rfl, next, found, rfl⟩
  | refused => cases q <;> cases h
  | enqueued => cases h
  | nothing => cases h
  | settled => cases h
  | pruned => cases h
  | closed => cases h

/-- A verdict is accepted by who gives it. -/
theorem verdict?_exchange {d : Delivery} {v : Verdict}
    (h : (s.exchange q).verdict? = some (d, v)) : ∃ now, q = .settle d v now := by
  unfold Exchange.verdict? exchange at h
  split at h
  · next eq =>
    cases h
    rw [Exchange.mk.injEq] at eq
    exact ⟨_, eq.1⟩
  · cases h

/-- Who is handed out a message has it under the lease in its record. -/
theorem record?_of_delivery?_exchange {d : Delivery} (h : (s.exchange q).delivery? = some d) :
    ∃ r, (s.perform q).store.record? d.job = some r ∧ r.lease = some d.lease := by
  unfold exchange at h
  have effect := s.perform_effect q
  generalize s.perform q = step at effect h ⊢
  cases effect with
  | leased isOpen lease next found ready =>
    cases h
    have job := id_of_record? found
    exact ⟨_, (record?_handedOut found lease _ _).trans (if_pos job), rfl⟩
  | refused => cases q <;> cases h
  | enqueued => cases h
  | nothing => cases h
  | settled => cases h
  | pruned => cases h
  | closed => cases h

end Store

/-! ## Identifiers and leases -/

namespace Run

variable {h : History} {s : Store}

/-- No lease is given twice. -/
theorem leases_nodup (run : Run h s) : (leases h).Nodup := by
  induction run with
  | start => exact .nil
  | call run q fresh ih =>
    unfold leases
    rw [deliveries_concat, List.map_append]
    cases he : (Store.exchange _ q).delivery? with
    | none => simpa [leases] using ih
    | some d =>
      obtain ⟨_, _, _, _, rfl, -⟩ := Store.delivery?_exchange he
      exact List.nodup_append.mpr ⟨ih, by simp, by
        rintro a ha b hb rfl
        rw [Option.toList_some, List.map_singleton, List.mem_singleton] at hb
        exact fresh (hb ▸ ha)⟩

/-- No two records are of one message, and all are of messages that were taken. -/
theorem ids_records (run : Run h s) :
    (s.records.map Record.id).Nodup ∧ ∀ id ∈ s.records.map Record.id, id ∈ ids h := by
  induction run with
  | start => exact ⟨.nil, by simp⟩
  | @call h s run q fresh ih =>
    have grow : ∀ e, ∀ id ∈ s.records.map Record.id, id ∈ ids (h ++ [e]) := by
      intro e id hid
      rw [ids_concat]
      exact List.mem_append_left _ (ih.2 id hid)
    unfold Store.exchange
    have effect := s.perform_effect q
    generalize s.perform q = step at effect ⊢
    cases effect with
    | refused => exact ⟨ih.1, grow _⟩
    | enqueued isOpen id m now =>
      simp only [Store.enqueued, List.map_append, List.map_cons, List.map_nil]
      constructor
      · refine List.nodup_append.mpr ⟨ih.1, by simp, ?_⟩
        rintro a ha b hb rfl
        rw [List.mem_singleton] at hb
        subst hb
        exact fresh (ih.2 _ ha)
      · intro a ha
        rcases List.mem_append.mp ha with ha | ha
        · exact grow _ a ha
        · rw [List.mem_singleton] at ha
          subst ha
          simp [ids_concat, Exchange.enqueued?]
    | nothing => exact ⟨ih.1, grow _⟩
    | leased isOpen lease next found ready =>
      simp only [Store.handedOut]
      rw [s.ids_update ((Record.start_id lease).trans (Store.id_of_record? found))]
      exact ⟨ih.1, grow _⟩
    | settled isOpen v now found held =>
      simp only [Store.settled]
      rw [s.ids_update (Record.settle_id v)]
      exact ⟨ih.1, grow _⟩
    | pruned cutoff =>
      have sub : ((s.prune cutoff).1.records.map Record.id).Sublist (s.records.map Record.id) :=
        List.filter_sublist.map _
      exact ⟨ih.1.sublist sub, fun id hid => grow _ id (sub.subset hid)⟩
    | closed => exact ⟨ih.1, grow _⟩

/-- Every record is found under its own identifier. -/
theorem record?_of_mem (run : Run h s) {r : Record} (hr : r ∈ s.records) :
    s.record? r.id = some r :=
  Store.record?_of_mem run.ids_records.1 hr

/-- Only messages that were taken have a record. -/
theorem id_mem_of_record? (run : Run h s) {id : JobId} {r : Record}
    (hr : s.record? id = some r) : id ∈ ids h := by
  refine run.ids_records.2 id ?_
  rw [← Store.id_of_record? hr]
  exact List.mem_map_of_mem (Store.mem_of_record? hr)

/-- A message that was not taken has no record. -/
theorem record?_of_not_mem (run : Run h s) {id : JobId} (new : id ∉ ids h) :
    s.record? id = none := by
  cases hr : s.record? id with
  | none => rfl
  | some r => exact absurd (run.id_mem_of_record? hr) new

end Run

end JobQueue
