import JobQueue.Proofs.Store.Forgotten
import JobQueue.Proofs.Store.WellFormed

/-!
# Nothing is lost, and nothing turns back

A store keeps every message that it took until it forgets it, and forgets only
what has ended and is old enough.  So the messages that were taken are at all times
as many as the records and those that were forgotten (`Run.length_ids`).

A record goes one way.  The functions that change a record take any status, so this
is a matter of the lease that they are called with: `Store.Makes.turns` has it that
a message under a lease is active, and from there the steps of a status are those
of `Status.Turns`.  `Record.LeadsTo` is what is left of them over a whole run.
-/

namespace JobQueue

open History

/-! ## The steps of a record -/

/-- What a call makes of the status of a message that it changes. -/
inductive Status.Turns : Request → Status → Status → Prop where
  /-- A message that waits is handed out. -/
  | leased {st : Status} (waits : st.isWaiting) (queues : List String) (lease : LeaseToken)
    (now : Instant) : Turns (.dequeue queues lease now) st .active
  /-- A message is to wait for another attempt. -/
  | retried (d : Delivery) (retryAt : Instant) (error : String) (now : Instant) :
    Turns (.settle d (.retry retryAt error) now) .active (.retrying retryAt)
  /-- A message is done. -/
  | completed (d : Delivery) (now : Instant) : Turns (.settle d .ack now) .active (.completed now)
  /-- A message is given up. -/
  | archived (d : Delivery) (error : String) (now : Instant) :
    Turns (.settle d (.archive error) now) .active (.archived now error)

theorem Status.Turns.not_isTerminal {q : Request} {st st' : Status} (turns : Turns q st st') :
    ¬ st.isTerminal := by
  cases turns with
  | leased waits => exact fun ended => not_isWaiting_of_isTerminal ended waits
  | _ => simp [isTerminal]

/-- Whether a record can become another one in time. -/
structure Record.LeadsTo (r r' : Record) : Prop where
  /-- It is of the same message, -/
  id_eq : r'.id = r.id
  /-- which has not changed -/
  message : r'.message = r.message
  /-- and was taken at the same time. -/
  createdAt : r'.createdAt = r.createdAt
  /-- Once nothing follows, nothing changes. -/
  ended : r.status.isTerminal → r' = r

namespace Record.LeadsTo

variable {r r' r'' : Record}

theorem refl (r : Record) : r.LeadsTo r := ⟨rfl, rfl, rfl, fun _ => rfl⟩

theorem trans (first : r.LeadsTo r') (second : r'.LeadsTo r'') : r.LeadsTo r'' where
  id_eq := second.id_eq.trans first.id_eq
  message := second.message.trans first.message
  createdAt := second.createdAt.trans first.createdAt
  ended terminal := by
    have eq := first.ended terminal
    subst eq
    exact second.ended terminal

end Record.LeadsTo

@[simp] theorem Record.settle_createdAt {r : Record} {now : Instant} (v : Verdict) :
    (r.settle now v).createdAt = r.createdAt := by cases v <;> rfl

namespace Store.Makes

variable {s : Store} {id : JobId} {m : Message} {born : Instant} {ms : List Moment}
  {q : Request} {r r' : Record}

/-- A call that changes a record takes its status one step on. -/
theorem turns (makes : s.Makes id r q r') (life : Life id m born ms r) :
    r' = r ∨ Status.Turns q r.status r'.status := by
  cases makes with
  | same => exact .inl rfl
  | leased ready => exact .inr (.leased (Record.isWaiting_of_isDeliverable ready) ..)
  | @settled d v now job held =>
    have active : r.status = .active := life.lease_isSome_iff.mp (by simp [held])
    rw [active]
    cases v with
    | ack => exact .inr (.completed d now)
    | retry retryAt error => exact .inr (.retried d retryAt error now)
    | archive error => exact .inr (.archived d error now)

theorem leadsTo (makes : s.Makes id r q r') (life : Life id m born ms r) : r.LeadsTo r' := by
  have ended : r.status.isTerminal → r' = r := fun terminal =>
    (makes.turns life).resolve_right fun turns => turns.not_isTerminal terminal
  cases makes with
  | same => exact .refl r
  | leased => exact ⟨rfl, rfl, rfl, ended⟩
  | settled => exact ⟨by simp, by simp, by simp, ended⟩

end Store.Makes

namespace Life

variable {id : JobId} {m : Message} {born : Instant} {ms : List Moment} {r : Record}

/-- A record holds what it was made of. -/
theorem message_eq (life : Life id m born ms r) : r.message = m ∧ r.createdAt = born := by
  induction life with
  | fresh => exact ⟨rfl, rfl⟩
  | leased _ _ _ ih => exact ih
  | settled _ v _ _ ih => simpa using ih

/-- A record counts the deliveries of its message in 32 bits. -/
theorem attempt_eq (life : Life id m born ms r) :
    r.attempt = UInt32.ofNat (ms.filterMap Moment.leased?).length := by
  induction life with
  | fresh => rfl
  | leased _ _ _ ih => simp [Record.start, ih, Moment.leased?]
  | settled _ v _ _ ih =>
    simp only [List.filterMap_append, List.filterMap_cons, List.filterMap_nil, Moment.leased?,
      List.append_nil, Record.settle_attempt]
    exact ih

end Life

/-! ## One call -/

namespace Store

variable {s : Store}

theorem record?_of_prune (nodup : (s.records.map Record.id).Nodup) {cutoff : Instant} {id : JobId}
    {r : Record} (found : (s.prune cutoff).1.record? id = some r) : s.record? id = some r := by
  rw [record?_prune nodup] at found
  exact (Option.filter_eq_some_iff.mp found).1

/-- A call that does not forget changes at most one record. -/
theorem exists_record?_perform (s : Store) {q : Request} (keeps : ∀ cutoff, q ≠ .prune cutoff) :
    ∃ id, ∀ other ≠ id, (s.perform q).store.record? other = s.record? other := by
  have effect := s.perform_effect q
  generalize s.perform q = step at effect ⊢
  cases effect with
  | refused => exact ⟨⟨""⟩, fun _ _ => rfl⟩
  | enqueued isOpen id m now =>
    refine ⟨id, fun other ne => ?_⟩
    rw [record?_enqueued, if_neg (Ne.symm ne), Option.or_none]
  | nothing => exact ⟨⟨""⟩, fun _ _ => rfl⟩
  | @leased isOpen queues lease now t r next found ready =>
    refine ⟨t.job, fun other ne => ?_⟩
    rw [record?_handedOut found, if_neg ne]
  | @settled isOpen d v now r found held =>
    refine ⟨d.job, fun other ne => ?_⟩
    rw [record?_settled found, if_neg ne]
  | pruned cutoff => exact absurd rfl (keeps cutoff)
  | closed => exact ⟨⟨""⟩, fun _ _ => record?_close _⟩

/-- What a call of a store does to its records. -/
structure Advances (s : Store) (q : Request) (s' : Store) : Prop where
  /-- A record goes only when it is forgotten, having ended long enough ago. -/
  goes : ∀ id r, s.record? id = some r → s'.record? id = none →
    ∃ cutoff, q = .prune cutoff ∧ r.status.isTerminal ∧ r.updatedAt < cutoff
  /-- A record stays as it is or goes one step on. -/
  turns : ∀ id r r', s.record? id = some r → s'.record? id = some r' →
    r' = r ∨ Status.Turns q r.status r'.status
  /-- What a record was made of stays, and what has ended stays as it is. -/
  leadsTo : ∀ id r r', s.record? id = some r → s'.record? id = some r' → r.LeadsTo r'
  /-- A call that forgets alters no record. -/
  prune : ∀ cutoff, q = .prune cutoff → ∀ id r, s'.record? id = some r → s.record? id = some r
  /-- Every other call changes at most one. -/
  single : (∀ cutoff, q ≠ .prune cutoff) →
    ∃ id, ∀ other ≠ id, s'.record? other = s.record? other

end Store

namespace Run

variable {h : History} {s : Store}

/-- What a call makes of a record that it leaves in the store. -/
theorem makes (run : Run h s) {q : Request} (fresh : q.IsFresh h) {id : JobId} {r r' : Record}
    (found : s.record? id = some r) (found' : (s.perform q).store.record? id = some r') :
    s.Makes id r q r' := by
  have others : ∀ m now, q ≠ .enqueue id m now := by
    rintro m now rfl
    exact fresh (run.id_mem_of_record? found)
  have knows : s.Knows id r := .inl found
  obtain ⟨r'', makes, knows⟩ := knows.call run.ids_records.1 others
  rwa [knows.eq_of_record? found']

theorem advances (run : Run h s) {q : Request} (fresh : q.IsFresh h) :
    s.Advances q (s.perform q).store where
  goes id r found gone := by
    obtain ⟨cutoff, rfl, old⟩ := Store.isOutdated_of_perform run.ids_records.1 found gone
    exact ⟨cutoff, rfl, by simpa [Store.isOutdated] using old⟩
  turns id r r' found found' := by
    obtain ⟨m, born, -, life⟩ := run.life_of_record? found
    exact (run.makes fresh found found').turns life
  leadsTo id r r' found found' := by
    obtain ⟨m, born, -, life⟩ := run.life_of_record? found
    exact (run.makes fresh found found').leadsTo life
  prune := by
    rintro cutoff rfl id r found
    exact Store.record?_of_prune run.ids_records.1 found
  single keeps := s.exists_record?_perform keeps

end Run

/-! ## Whole runs -/

/-- The number of records that a call made a store forget. -/
def Exchange.removed : Exchange → Nat
  | { response := .pruned n, .. } => n
  | _ => 0

/-- The number of records that were forgotten. -/
def History.removed (h : History) : Nat := h.foldr (fun e n => e.removed + n) 0

theorem History.removed_concat (h : History) (e : Exchange) :
    removed (h ++ [e]) = removed h + e.removed := by
  induction h with
  | nil => simp [removed]
  | cons x rest ih =>
    simp only [removed, List.cons_append, List.foldr_cons] at ih ⊢
    omega

namespace Run

variable {h later : History} {s s' : Store}

/-- The messages that were taken have a record each or were forgotten. -/
theorem length_ids (run : Run h s) : (ids h).length = s.records.length + removed h := by
  induction run with
  | start => rfl
  | @call h s run q fresh ih =>
    rw [ids_concat, removed_concat, List.length_append, ih]
    unfold Store.exchange
    have effect := s.perform_effect q
    generalize s.perform q = step at effect ⊢
    cases effect with
    | refused => cases q <;> simp [Exchange.enqueued?, Exchange.removed]
    | enqueued =>
      simp [Exchange.enqueued?, Exchange.removed, Store.enqueued]
      omega
    | nothing => simp [Exchange.enqueued?, Exchange.removed]
    | leased => simp [Exchange.enqueued?, Exchange.removed, Store.handedOut, Store.update]
    | settled => simp [Exchange.enqueued?, Exchange.removed, Store.settled, Store.update]
    | pruned cutoff =>
      have fewer : (s.records.filter fun r => !Store.isOutdated cutoff r).length ≤
        s.records.length := List.length_filter_le ..
      simp only [Exchange.enqueued?, Exchange.removed, Store.prune, Option.map_none,
        Option.toList_none, List.length_nil]
      omega
    | closed => simp [Exchange.enqueued?, Exchange.removed, Store.close]

/-- A record counts the deliveries of its message in 32 bits. -/
theorem attempt_eq (run : Run h s) {id : JobId} {r : Record} (found : s.record? id = some r) :
    r.attempt = UInt32.ofNat (deliveriesOf h id).length := by
  obtain ⟨m, born, -, life⟩ := run.life_of_record? found
  rw [life.attempt_eq, deliveriesOf_eq]

/-- What a record becomes while others call. -/
theorem leadsTo (run : Run h s) (run' : Run (h ++ later) s') {id : JobId} {r r' : Record}
    (found : s.record? id = some r) (found' : s'.record? id = some r') : r.LeadsTo r' := by
  generalize eq : h ++ later = all at run'
  induction run' generalizing later r' with
  | start =>
    obtain ⟨rfl, rfl⟩ := List.append_eq_nil_iff.mp eq
    cases run.unique .start
    cases found
  | @call h' s₁ run₁ q fresh ih =>
    rcases List.eq_nil_or_concat later with rfl | ⟨later, e, rfl⟩
    · rw [List.append_nil] at eq
      subst eq
      cases run.unique (run₁.call q fresh)
      cases found.symm.trans found'
      exact .refl r
    · rw [List.concat_eq_append, ← List.append_assoc] at eq
      obtain ⟨rfl, -⟩ := List.append_inj' eq rfl
      cases hr : s₁.record? id with
      | some r₁ => exact (ih hr rfl).trans ((run₁.advances fresh).leadsTo id r₁ r' hr found')
      | none =>
        have others : ∀ m now, q ≠ .enqueue id m now := by
          rintro m now rfl
          refine fresh ?_
          rw [ids_append]
          exact List.mem_append_left _ (run.id_mem_of_record? found)
        rw [Store.record?_perform_of_none hr others] at found'
        cases found'

/-- As long as its deliveries can be counted, a message does not lose attempts. -/
theorem attempt_le (run : Run h s) (run' : Run (h ++ later) s') {id : JobId} {r r' : Record}
    (found : s.record? id = some r) (found' : s'.record? id = some r')
    (few : (deliveriesOf (h ++ later) id).length < UInt32.size) : r.attempt ≤ r'.attempt := by
  rw [run.attempt_eq found, run'.attempt_eq found', UInt32.le_iff_toNat_le]
  rw [deliveriesOf_append, List.length_append] at few ⊢
  rw [UInt32.toNat_ofNat_of_lt' few, UInt32.toNat_ofNat_of_lt' (by omega)]
  omega

end Run

end JobQueue
