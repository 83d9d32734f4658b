import JobQueue.Proofs.Store.Run
import Mathlib.Data.List.Chain

/-!
# The life of a message

Between being taken and being forgotten a message is handed out and settled, by
turns.  Its *moments* are these calls, read off a history (`momentsOf`).  A `Life`
says how a record comes about by its moments: it begins as that of a new message,
is handed out only when it may be, and is settled only under its own lease.

`Run.life` says that every record of a store has a life with the moments of its
message, and that a message without a record ended its life for good.  Everything
else here is about lives alone: how attempts are counted, and which moments
follow each other.
-/

namespace JobQueue

/-- What happens to a message that is handed out. -/
inductive Moment where
  /-- It is handed out. -/
  | leased (d : Delivery) (now : Instant)
  /-- A delivery of it is settled. -/
  | settled (d : Delivery) (v : Verdict) (now : Instant)
deriving DecidableEq

namespace Moment

/-- The delivery that a moment is about. -/
def delivery : Moment → Delivery
  | leased d _ | settled d _ _ => d

/-- The delivery that is handed out. -/
def leased? : Moment → Option Delivery
  | leased d _ => some d
  | settled .. => none

/-- The verdict with its delivery. -/
def settled? : Moment → Option (Delivery × Verdict)
  | leased .. => none
  | settled d v _ => some (d, v)

/-- Which moments follow each other: a verdict the delivery that it is on, and the
next delivery a verdict that lets the message wait. -/
def Follows : Moment → Moment → Prop
  | leased d _, settled d' _ _ => d'.lease = d.lease
  | settled _ (.retry _ _) _, leased _ _ => True
  | _, _ => False

end Moment

/-- The moment that a call is. -/
def Exchange.moment? : Exchange → Option Moment
  | { request := .dequeue _ _ now, response := .dequeued (some d), .. } => some (.leased d now)
  | { request := .settle d v now, response := .settled, .. } => some (.settled d v now)
  | _ => none

namespace History

/-- The moments of a message. -/
def momentsOf (h : History) (id : JobId) : List Moment :=
  (h.filterMap Exchange.moment?).filter fun x => x.delivery.job = id

theorem momentsOf_append (h₁ h₂ : History) (id : JobId) :
    momentsOf (h₁ ++ h₂) id = momentsOf h₁ id ++ momentsOf h₂ id := by
  simp [momentsOf]

theorem momentsOf_concat (h : History) (e : Exchange) (id : JobId) :
    momentsOf (h ++ [e]) id =
      momentsOf h id ++ (e.moment?.filter fun x => x.delivery.job = id).toList := by
  rw [momentsOf_append]
  congr 1
  cases he : e.moment? with
  | none => simp [momentsOf, he]
  | some x => by_cases hx : x.delivery.job = id <;> simp [momentsOf, he, hx, Option.filter]

theorem delivery?_eq (e : Exchange) : e.delivery? = e.moment?.bind Moment.leased? := by
  obtain ⟨q, r, ev⟩ := e
  cases q <;> cases r <;> try rfl
  next d => cases d <;> rfl

theorem verdict?_eq (e : Exchange) : e.verdict? = e.moment?.bind Moment.settled? := by
  obtain ⟨q, r, ev⟩ := e
  cases q <;> cases r <;> try rfl
  next d => cases d <;> rfl

/-- The deliveries of a message are those of its moments. -/
theorem deliveriesOf_eq (h : History) (id : JobId) :
    deliveriesOf h id = (momentsOf h id).filterMap Moment.leased? := by
  unfold deliveriesOf deliveries momentsOf
  rw [List.filterMap_filter, List.filterMap_filterMap, List.filter_filterMap]
  congr 1
  funext e
  rw [delivery?_eq]
  cases e.moment? with
  | none => rfl
  | some x =>
    cases x with
    | leased d now =>
      by_cases hd : d.job = id <;> simp [Moment.leased?, Moment.delivery, Option.filter, hd]
    | settled d v now => simp [Moment.leased?]

/-- The verdicts on a message are those of its moments. -/
theorem verdictsOf_eq (h : History) (id : JobId) :
    verdictsOf h id = (momentsOf h id).filterMap Moment.settled? := by
  unfold verdictsOf verdicts momentsOf
  rw [List.filterMap_filter, List.filterMap_filterMap, List.filter_filterMap]
  congr 1
  funext e
  rw [verdict?_eq]
  cases e.moment? with
  | none => rfl
  | some x =>
    cases x with
    | leased d now => simp [Moment.settled?]
    | settled d v now =>
      by_cases hd : d.job = id <;> simp [Moment.settled?, Moment.delivery, Option.filter, hd]

end History

open History

/-- How the record of a message comes about by its moments. -/
inductive Life (id : JobId) (m : Message) (born : Instant) : List Moment → Record → Prop where
  /-- The message is new. -/
  | fresh : Life id m born [] (.ofMessage id m born)
  /-- It is handed out when it may be. -/
  | leased {ms : List Moment} {r : Record} (life : Life id m born ms r) (lease : LeaseToken)
    {now : Instant} (ready : r.isDeliverable now) :
    Life id m born (ms ++ [.leased ((r.start lease now).delivery lease) now]) (r.start lease now)
  /-- It is settled under its lease. -/
  | settled {ms : List Moment} {r : Record} (life : Life id m born ms r) {d : Delivery}
    (v : Verdict) (now : Instant) (held : r.lease = some d.lease) :
    Life id m born (ms ++ [.settled d v now]) (r.settle now v)

namespace Life

variable {id : JobId} {m : Message} {born : Instant} {ms : List Moment} {r : Record}

theorem id_eq (life : Life id m born ms r) : r.id = id := by
  induction life with
  | fresh => rfl
  | leased _ _ _ ih => exact ih
  | settled _ v _ _ ih => rw [Record.settle_id, ih]

/-! ## Leases -/

/-- A message is held under a lease exactly while it is active. -/
theorem lease_isSome_iff (life : Life id m born ms r) :
    r.lease.isSome ↔ r.status = .active := by
  induction life with
  | fresh =>
    simp only [Record.ofMessage, Option.isSome_none, Bool.false_eq_true, false_iff]
    split <;> nofun
  | leased => simp [Record.start]
  | settled _ v _ _ _ =>
    cases v <;> simp [Record.settle, Record.complete, Record.retry, Record.archive]

/-- The lease of a message is that of its last moment. -/
theorem getLast?_of_lease (life : Life id m born ms r) {lease : LeaseToken}
    (held : r.lease = some lease) :
    ∃ now, ms.getLast? = some (.leased (r.delivery lease) now) := by
  cases life with
  | fresh => cases held
  | leased life lease' ready =>
    cases held
    exact ⟨_, List.getLast?_concat⟩
  | settled life v now held' =>
    rw [Record.settle_lease] at held
    cases held

/-- A message that waits is new or was let wait by its last moment. -/
theorem getLast?_of_isWaiting (life : Life id m born ms r) (waits : r.status.isWaiting) :
    ms = [] ∨ ∃ d retryAt error now,
      ms.getLast? = some (.settled d (.retry retryAt error) now) := by
  cases life with
  | fresh => exact .inl rfl
  | leased life lease ready => cases waits
  | settled life v now held =>
    cases v with
    | ack => cases waits
    | retry retryAt error => exact .inr ⟨_, _, _, _, List.getLast?_concat⟩
    | archive error => cases waits

/-- The moments of a life follow each other. -/
theorem isChain (life : Life id m born ms r) : ms.IsChain Moment.Follows := by
  induction life with
  | fresh => exact .nil
  | leased life lease ready ih =>
    refine List.isChain_append.mpr ⟨ih, .singleton _, ?_⟩
    intro x hx y hy
    rcases life.getLast?_of_isWaiting (Record.isWaiting_of_isDeliverable ready) with
      rfl | ⟨d, retryAt, error, now, hl⟩
    · cases hx
    · rw [hl] at hx
      cases hx
      cases hy
      trivial
  | settled life v now held ih =>
    refine List.isChain_append.mpr ⟨ih, .singleton _, ?_⟩
    intro x hx y hy
    obtain ⟨t, hl⟩ := life.getLast?_of_lease held
    rw [hl] at hx
    cases hx
    cases hy
    rfl

/-! ## Attempts -/

/-- The attempts of the deliveries are counted from 1, and a record knows how many
there were. -/
theorem attempts (life : Life id m born ms r)
    (few : (ms.filterMap Moment.leased?).length < UInt32.size) :
    (ms.filterMap Moment.leased?).map (fun d => d.attempt.toNat) =
        List.range' 1 (ms.filterMap Moment.leased?).length ∧
      r.attempt.toNat = (ms.filterMap Moment.leased?).length := by
  induction life with
  | fresh => exact ⟨rfl, rfl⟩
  | @leased ms r life lease now ready ih =>
    simp only [List.filterMap_append, List.filterMap_cons, List.filterMap_nil, Moment.leased?,
      List.length_append, List.length_singleton] at few ⊢
    obtain ⟨counted, known⟩ := ih (by omega)
    have next : (r.attempt + 1).toNat = (ms.filterMap Moment.leased?).length + 1 := by
      rw [UInt32.toNat_add, known]
      exact Nat.mod_eq_of_lt few
    refine ⟨?_, next⟩
    rw [List.map_append, counted, List.range'_concat, List.map_singleton, Nat.one_mul,
      Nat.add_comm 1]
    exact congrArg _ (congrArg (fun n => [n]) next)
  | settled life v now held ih =>
    simp only [List.filterMap_append, List.filterMap_cons, List.filterMap_nil, Moment.leased?,
      List.append_nil, Record.settle_attempt] at few ⊢
    exact ih few

end Life

/-! ## Lives in a run -/

/-- Whether this is the record of a message, or was when the message was forgotten. -/
def Store.Knows (s : Store) (id : JobId) (r : Record) : Prop :=
  s.record? id = some r ∨ s.record? id = none ∧ r.status.isTerminal

theorem Store.Knows.eq_of_record? {s : Store} {id : JobId} {r r' : Record} (knows : s.Knows id r)
    (found : s.record? id = some r') : r' = r := by
  rcases knows with h | ⟨h, -⟩
  · exact Option.some.inj (found.symm.trans h)
  · rw [h] at found
    cases found

/-- What is known of a message stays so where its record does. -/
theorem Store.Knows.of_eq {s s' : Store} {id : JobId} {r : Record} (knows : s.Knows id r)
    (same : s'.record? id = s.record? id) : s'.Knows id r := by
  unfold Store.Knows
  rw [same]
  exact knows

/-- What a call of a store makes of the record of a message. -/
inductive Store.Makes (s : Store) (id : JobId) (r : Record) : Request → Record → Prop where
  /-- It leaves it. -/
  | same {q : Request} (other : ∀ x, (s.exchange q).moment? = some x → x.delivery.job ≠ id) :
    Makes s id r q r
  /-- It hands the message out. -/
  | leased {queues : List String} {lease : LeaseToken} {now : Instant}
    (ready : r.isDeliverable now)
    (answer : (s.perform (.dequeue queues lease now)).answer =
      .dequeued (some ((r.start lease now).delivery lease))) :
    Makes s id r (.dequeue queues lease now) (r.start lease now)
  /-- It settles the message. -/
  | settled {d : Delivery} {v : Verdict} {now : Instant} (job : d.job = id)
    (held : r.lease = some d.lease)
    (answer : (s.perform (.settle d v now)).answer = .settled) :
    Makes s id r (.settle d v now) (r.settle now v)

theorem Store.moment?_of_dequeued {s : Store} {queues : List String} {lease : LeaseToken}
    {now : Instant} {d : Delivery}
    (answer : (s.perform (.dequeue queues lease now)).answer = .dequeued (some d)) :
    (s.exchange (.dequeue queues lease now)).moment? = some (.leased d now) := by
  rw [exchange, answer]
  rfl

theorem Store.moment?_of_settled {s : Store} {d : Delivery} {v : Verdict} {now : Instant}
    (answer : (s.perform (.settle d v now)).answer = .settled) :
    (s.exchange (.settle d v now)).moment? = some (.settled d v now) := by
  rw [exchange, answer]
  rfl

/-- A call of a store makes something of every record that is known. -/
theorem Store.Knows.call {s : Store} {id : JobId} {r : Record} (knows : s.Knows id r)
    (nodup : (s.records.map Record.id).Nodup) {q : Request}
    (fresh : ∀ m now, q ≠ .enqueue id m now) :
    ∃ r', s.Makes id r q r' ∧ (s.perform q).store.Knows id r' := by
  have effect := s.perform_effect q
  have exchange : s.exchange q = ⟨q, (s.perform q).answer, (s.perform q).event⟩ := rfl
  generalize eq : s.perform q = step at effect exchange ⊢
  have quiet : (s.exchange q).moment? = none →
      ∀ x, (s.exchange q).moment? = some x → x.delivery.job ≠ id := by
    intro none x hx
    rw [none] at hx
    cases hx
  cases effect with
  | refused =>
    refine ⟨r, .same (quiet ?_), knows⟩
    rw [exchange]
    cases q <;> rfl
  | enqueued isOpen id' m' now =>
    refine ⟨r, .same (quiet (by rw [exchange]; rfl)), knows.of_eq ?_⟩
    have hne : id' ≠ id := by
      rintro rfl
      exact fresh m' now rfl
    rw [Store.record?_enqueued, if_neg hne, Option.or_none]
  | nothing => exact ⟨r, .same (quiet (by rw [exchange]; rfl)), knows⟩
  | @leased isOpen queues lease now t r₁ next found ready =>
    by_cases hid : t.job = id
    · have same := knows.eq_of_record? (hid ▸ found)
      subst same
      refine ⟨r₁.start lease now, .leased ready (by rw [eq]), .inl ?_⟩
      rw [Store.record?_handedOut found, if_pos hid.symm]
    · refine ⟨r, .same ?_, knows.of_eq ?_⟩
      · rw [exchange]
        rintro x hx rfl
        cases hx
        exact hid (Store.id_of_record? found).symm
      · rw [Store.record?_handedOut found, if_neg (Ne.symm hid)]
  | @settled isOpen d v now r₁ found held =>
    by_cases hid : d.job = id
    · have same := knows.eq_of_record? (hid ▸ found)
      subst same
      refine ⟨r₁.settle now v, .settled hid held (by rw [eq]), .inl ?_⟩
      rw [Store.record?_settled found, if_pos hid.symm]
    · refine ⟨r, .same ?_, knows.of_eq ?_⟩
      · rw [exchange]
        rintro x hx rfl
        cases hx
        exact hid rfl
      · rw [Store.record?_settled found, if_neg (Ne.symm hid)]
  | pruned cutoff =>
    refine ⟨r, .same (quiet (by rw [exchange]; rfl)), ?_⟩
    unfold Store.Knows
    rw [Store.record?_prune nodup]
    rcases knows with found | ⟨found, ended⟩
    · rw [found]
      by_cases old : Store.isOutdated cutoff r
      · simp only [Store.isOutdated, Bool.and_eq_true] at old
        exact .inr ⟨by simp [Option.filter, Store.isOutdated, old], old.1⟩
      · exact .inl (by simp [Option.filter, old])
    · rw [found]
      exact .inr ⟨rfl, ended⟩
  | closed => exact ⟨r, .same (quiet (by rw [exchange]; rfl)), knows.of_eq rfl⟩

/-- A call that leaves a record does not hand its message out. -/
theorem History.deliveriesOf_of_other {e : Exchange} {id : JobId}
    (other : ∀ x, e.moment? = some x → x.delivery.job ≠ id) (h : History) :
    deliveriesOf (h ++ [e]) id = deliveriesOf h id := by
  have none : (e.delivery?.filter fun d => d.job = id) = none := by
    rw [Option.filter_eq_none_iff, delivery?_eq]
    intro d hd
    obtain ⟨x, hx, eq⟩ := Option.bind_eq_some_iff.mp hd
    cases x with
    | leased d' now =>
      cases eq
      have ne : d.job ≠ id := other _ hx
      simpa using ne
    | settled => cases eq
  rw [deliveriesOf_concat, none]
  exact List.append_nil _

/-- A call continues the life of every message that was taken before. -/
theorem Life.call {s : Store} {id : JobId} {m : Message} {born : Instant} {ms : List Moment}
    {r r' : Record} (life : Life id m born ms r) {q : Request} (makes : s.Makes id r q r') :
    Life id m born
      (ms ++ ((s.exchange q).moment?.filter fun x => x.delivery.job = id).toList) r' := by
  cases makes with
  | same other =>
    have none : ((s.exchange q).moment?.filter fun x => x.delivery.job = id) = none := by
      simpa [Option.filter_eq_none_iff] using other
    rw [none]
    exact (List.append_nil ms).symm ▸ life
  | @leased queues lease now ready answer =>
    have job : (Moment.leased ((r.start lease now).delivery lease) now).delivery.job = id :=
      life.id_eq
    rw [Store.moment?_of_dequeued answer, Option.filter_some, if_pos (decide_eq_true job)]
    exact life.leased lease ready
  | @settled d v now job held answer =>
    have job : (Moment.settled d v now).delivery.job = id := job
    rw [Store.moment?_of_settled answer, Option.filter_some, if_pos (decide_eq_true job)]
    exact life.settled v now held

namespace Run

variable {h : History} {s : Store}

/-- Only messages that were taken are handed out and settled. -/
theorem momentsOf_eq_nil (run : Run h s) {id : JobId} (unknown : id ∉ ids h) :
    momentsOf h id = [] := by
  induction run with
  | start => rfl
  | @call h s run q fresh ih =>
    rw [ids_concat, List.mem_append, not_or] at unknown
    rw [momentsOf_concat, ih unknown.1, List.nil_append]
    have others : ∀ {other : JobId} {r : Record}, s.record? other = some r → other ≠ id := by
      rintro other r hr rfl
      exact unknown.1 (run.id_mem_of_record? hr)
    unfold Store.exchange
    have effect := s.perform_effect q
    generalize s.perform q = step at effect ⊢
    cases effect with
    | refused => cases q <;> rfl
    | enqueued => rfl
    | nothing => rfl
    | leased isOpen lease next found ready =>
      have hne := others (Store.id_of_record? found ▸ found)
      simp [Exchange.moment?, Moment.delivery, Record.delivery, Option.filter, hne]
    | settled isOpen v now found held =>
      have hne := others found
      simp [Exchange.moment?, Moment.delivery, Option.filter, hne]
    | pruned => rfl
    | closed => rfl

/-- Every message that was taken has a life with its moments, at whose end is its
record; without a record it is over for good. -/
theorem life (run : Run h s) {id : JobId} {m : Message} {born : Instant}
    (taken : (id, m, born) ∈ enqueued h) :
    ∃ r, Life id m born (momentsOf h id) r ∧ s.Knows id r := by
  induction run with
  | start => cases taken
  | @call h s run q fresh ih =>
    rw [enqueued_concat, List.mem_append] at taken
    rw [momentsOf_concat]
    rcases taken with before | now
    · obtain ⟨r, life, knows⟩ := ih before
      have others : ∀ m now, q ≠ .enqueue id m now := by
        rintro m now rfl
        exact fresh (List.mem_map_of_mem before)
      obtain ⟨r', makes, knows⟩ := knows.call run.ids_records.1 others
      exact ⟨r', life.call makes, knows⟩
    · rw [Option.mem_toList] at now
      have new := Store.record?_of_enqueued?_exchange now
      cases Store.enqueued?_exchange now
      have none : (s.exchange (.enqueue id m born)).moment? = none := rfl
      rw [run.momentsOf_eq_nil fresh, none]
      exact ⟨_, .fresh, .inl (new (run.record?_of_not_mem fresh))⟩

/-- Every record has a life with the moments of its message. -/
theorem life_of_record? (run : Run h s) {id : JobId} {r : Record} (found : s.record? id = some r) :
    ∃ m born, (id, m, born) ∈ enqueued h ∧ Life id m born (momentsOf h id) r := by
  obtain ⟨⟨_, m, born⟩, taken, rfl⟩ := List.mem_map.mp (run.id_mem_of_record? found)
  obtain ⟨r', life, knows⟩ := run.life taken
  rw [knows.eq_of_record? found]
  exact ⟨m, born, taken, life⟩

/-- A message under a lease does not wait. -/
theorem not_isWaiting_of_lease (run : Run h s) {id : JobId} {r : Record}
    (found : s.record? id = some r) {lease : LeaseToken} (held : r.lease = some lease) :
    ¬ r.status.isWaiting := by
  obtain ⟨m, born, -, life⟩ := run.life_of_record? found
  have active := life.lease_isSome_iff.mp (by rw [held]; rfl)
  rw [active]
  nofun

end Run

end JobQueue
