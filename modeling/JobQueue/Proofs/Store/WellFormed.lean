import JobQueue.Proofs.Store.Queues

/-!
# Well-formed stores

What holds of every store of a run, whatever is settled, and with which
deliveries: `Store.WellFormed` has it of the look-up of records, of the queues, and
of the fields of a record that depend on its status.  The counts of the store
(`Store.stats`) then agree with the queues and with the number of records.

The fields of a record come from its life.  That a record without an attempt is
one of a new message needs that attempts are counted without overflow.
-/

namespace JobQueue

open History

/-! ## The fields of a record -/

namespace Life

variable {id : JobId} {m : Message} {born : Instant} {ms : List Moment} {r : Record}

/-- A message is new until it is handed out. -/
theorem eq_nil_of_leased_eq_nil (life : Life id m born ms r)
    (none : ms.filterMap Moment.leased? = []) : ms = [] := by
  cases life with
  | fresh => rfl
  | leased life lease ready => simp [Moment.leased?] at none
  | settled life v now held =>
    obtain ⟨t, hl⟩ := life.getLast?_of_lease held
    have mem := List.mem_of_getLast? hl
    rw [List.filterMap_append, List.append_eq_nil_iff, List.filterMap_eq_nil_iff] at none
    cases none.1 _ mem

/-- A message is pending or scheduled exactly while it is new. -/
theorem eq_nil_iff (life : Life id m born ms r) :
    ms = [] ↔ r.status = .pending ∨ r.status = .scheduled := by
  cases life with
  | fresh =>
    refine iff_of_true rfl ?_
    unfold Record.ofMessage
    by_cases due : m.isDue born
    · exact .inl (if_pos due)
    · exact .inr (if_neg due)
  | leased life lease ready => exact iff_of_false (by simp) (by simp [Record.start])
  | settled life v now held =>
    refine iff_of_false (by simp) ?_
    cases v <;> rintro (e | e) <;> cases e

/-- There was no attempt exactly while a message is new. -/
theorem attempt_eq_zero_iff (life : Life id m born ms r)
    (few : (ms.filterMap Moment.leased?).length < UInt32.size) : r.attempt = 0 ↔ ms = [] := by
  have counted := (life.attempts few).2
  constructor
  · intro none
    rw [none] at counted
    exact life.eq_nil_of_leased_eq_nil (List.length_eq_zero_iff.mp counted.symm)
  · rintro rfl
    exact UInt32.toNat_inj.mp counted

/-- A new message has not failed. -/
theorem lastError_of_nil (life : Life id m born [] r) : r.lastError = none := by
  generalize eq : ([] : List Moment) = ms at life
  cases life with
  | fresh => rfl
  | leased => simp at eq
  | settled => simp at eq

/-- A message that waits for another attempt has failed. -/
theorem lastError_of_retrying (life : Life id m born ms r) {due : Instant}
    (status : r.status = .retrying due) : r.lastError.isSome := by
  cases life with
  | fresh =>
    unfold Record.ofMessage at status
    split at status <;> cases status
  | leased => cases status
  | settled life v now held =>
    cases v with
    | ack => cases status
    | retry => rfl
    | archive => cases status

/-- A message is given up with the error of its last attempt. -/
theorem lastError_of_archived (life : Life id m born ms r) {t : Instant} {error : String}
    (status : r.status = .archived t error) : r.lastError = some error := by
  cases life with
  | fresh =>
    unfold Record.ofMessage at status
    split at status <;> cases status
  | leased => cases status
  | settled life v now held =>
    cases v with
    | ack => cases status
    | retry => cases status
    | archive =>
      cases status
      rfl

end Life

/-! ## Well-formedness -/

/-- What holds of the records and the queues of every store of a run. -/
structure Store.WellFormed (s : Store) : Prop where
  /-- Every record is found under its own identifier, and nothing else is. -/
  record?_iff : ∀ id r, s.record? id = some r ↔ r ∈ s.records ∧ r.id = id
  /-- No message waits twice, on one queue or on two. -/
  jobs_nodup : (s.waiting.map Ticket.job).Nodup
  /-- A message waits on a queue exactly if its record says that it waits and its
  queue is this one. -/
  mem_queue_iff : ∀ q id, id ∈ s.queue q ↔
    ∃ r, s.record? id = some r ∧ r.status.isWaiting ∧ r.message.queue = q
  /-- A message is held under a lease exactly while it is active. -/
  lease_isSome_iff : ∀ r ∈ s.records, r.lease.isSome ↔ r.status = .active
  /-- There was no attempt exactly while a message is pending or scheduled. -/
  attempt_eq_zero_iff : ∀ r ∈ s.records,
    r.attempt = 0 ↔ r.status = .pending ∨ r.status = .scheduled
  /-- Without an attempt there is no error. -/
  lastError_of_attempt : ∀ r ∈ s.records, r.attempt = 0 → r.lastError = none
  /-- With another attempt to come there is an error. -/
  lastError_of_retrying : ∀ r ∈ s.records, ∀ due,
    r.status = .retrying due → r.lastError.isSome
  /-- A message is given up with the error of its last attempt. -/
  lastError_of_archived : ∀ r ∈ s.records, ∀ t error,
    r.status = .archived t error → r.lastError = some error

theorem Store.InStep.mem_queue_iff {s : Store} (inStep : s.InStep) (q : String) (id : JobId) :
    id ∈ s.queue q ↔ ∃ r, s.record? id = some r ∧ r.status.isWaiting ∧ r.message.queue = q := by
  rw [Store.mem_queue, inStep.mem_waiting_iff]
  constructor
  · rintro ⟨r, found, ticket, waits⟩
    exact ⟨r, found, waits, congrArg Ticket.queue ticket⟩
  · rintro ⟨r, found, waits, rfl⟩
    refine ⟨r, found, ?_, waits⟩
    rw [Record.ticket, Store.id_of_record? found]

/-- Every store of a run is well-formed. -/
theorem Run.wellFormed {h : History} {s : Store} (run : Run h s) (few : Countable h) :
    s.WellFormed := by
  have life_of_mem : ∀ r ∈ s.records, ∃ m born, Life r.id m born (momentsOf h r.id) r := by
    intro r hr
    obtain ⟨m, born, -, life⟩ := run.life_of_record? (run.record?_of_mem hr)
    exact ⟨m, born, life⟩
  have counted : ∀ id, ((momentsOf h id).filterMap Moment.leased?).length < UInt32.size := by
    intro id
    rw [← deliveriesOf_eq]
    exact few id
  constructor
  · intro id r
    constructor
    · intro found
      exact ⟨Store.mem_of_record? found, Store.id_of_record? found⟩
    · rintro ⟨hr, rfl⟩
      exact run.record?_of_mem hr
  · exact run.inStep.jobs_nodup
  · exact run.inStep.mem_queue_iff
  · intro r hr
    obtain ⟨m, born, life⟩ := life_of_mem r hr
    exact life.lease_isSome_iff
  · intro r hr
    obtain ⟨m, born, life⟩ := life_of_mem r hr
    rw [life.attempt_eq_zero_iff (counted r.id), life.eq_nil_iff]
  · intro r hr none
    obtain ⟨m, born, life⟩ := life_of_mem r hr
    rw [life.attempt_eq_zero_iff (counted r.id)] at none
    rw [none] at life
    exact life.lastError_of_nil
  · intro r hr due status
    obtain ⟨m, born, life⟩ := life_of_mem r hr
    exact life.lastError_of_retrying status
  · intro r hr t error status
    obtain ⟨m, born, life⟩ := life_of_mem r hr
    exact life.lastError_of_archived status

/-! ## Counts -/

/-- The number of records that are counted. -/
def Stats.total (n : Stats) : Nat :=
  n.scheduled + n.pending + n.active + n.retrying + n.completed + n.archived

/-- The number of records of messages that wait. -/
def Stats.waiting (n : Stats) : Nat := n.scheduled + n.pending + n.retrying

namespace Store

variable {s : Store}

/-- The number of messages that wait on some queues. -/
def waitingOn (s : Store) (names : List String) : Nat :=
  names.foldr (fun q n => (s.queue q).length + n) 0

/-- What grows by one with certain statuses counts the records that have them. -/
theorem measure_stats {f : Stats → Nat} {p : Status → Bool} (s : Store) (zero : f {} = 0)
    (succ : ∀ n st, f (n.count st) = f n + if p st then 1 else 0) :
    f s.stats = s.records.countP fun r => p r.status := by
  have fold : ∀ (records : List Record) (n : Stats),
      f (records.foldl (fun n r => n.count r.status) n) =
        f n + records.countP fun r => p r.status := by
    intro records
    induction records with
    | nil => exact fun n => rfl
    | cons r rest ih =>
      intro n
      rw [List.foldl_cons, ih, succ, List.countP_cons]
      omega
  rw [stats, fold, zero, Nat.zero_add]

theorem total_stats (s : Store) : s.stats.total = s.records.length := by
  rw [s.measure_stats (f := Stats.total) (p := fun _ => true) rfl, List.countP_true]
  intro n st
  cases st <;> simp only [Stats.count, Stats.total, if_true] <;> omega

theorem waiting_stats (s : Store) :
    s.stats.waiting = s.records.countP fun r => r.status.isWaiting := by
  refine s.measure_stats rfl ?_
  intro n st
  cases st <;> simp only [Stats.count, Stats.waiting, Status.isWaiting] <;> simp <;> omega

/-- What waits on some queues is what waits and names one of them. -/
theorem waitingOn_eq {names : List String} (nodup : names.Nodup) :
    s.waitingOn names = s.waiting.countP fun t => t.queue ∈ names := by
  induction names with
  | nil => simp [waitingOn]
  | cons q rest ih =>
    obtain ⟨new, nodup⟩ := List.nodup_cons.mp nodup
    have ih := ih nodup
    unfold waitingOn at ih ⊢
    rw [List.foldr_cons, ih, queue, List.length_map, ← List.countP_eq_length_filter]
    clear ih
    induction s.waiting with
    | nil => rfl
    | cons t waiting ih =>
      rw [List.countP_cons, List.countP_cons, List.countP_cons, ← ih]
      by_cases ht : t.queue = q
      · simp [ht, new]
        omega
      · simp [ht]
        omega

/-- What waits are the tickets of the records that say so, in some order. -/
theorem InStep.perm (inStep : s.InStep) (nodup : (s.records.map Record.id).Nodup) :
    s.waiting.Perm ((s.records.filter fun r => r.status.isWaiting).map Record.ticket) := by
  rw [List.perm_ext_iff_of_nodup inStep.waiting_nodup]
  · intro t
    rw [inStep.mem_waiting_iff]
    simp only [List.mem_map, List.mem_filter]
    constructor
    · rintro ⟨r, found, ticket, waits⟩
      exact ⟨r, ⟨mem_of_record? found, waits⟩, ticket⟩
    · rintro ⟨r, ⟨hr, waits⟩, rfl⟩
      exact ⟨r, record?_of_mem nodup hr, rfl, waits⟩
  · refine .of_map Ticket.job ?_
    rw [List.map_map]
    exact nodup.sublist (List.filter_sublist.map _)

/-- All that waits is counted with the queues that have something. -/
theorem InStep.waitingOn_eq (inStep : s.InStep) (nodup : (s.records.map Record.id).Nodup)
    {names : List String} (distinct : names.Nodup) (cover : ∀ q, s.queue q ≠ [] → q ∈ names) :
    s.waitingOn names = s.stats.waiting := by
  have all : ∀ t ∈ s.waiting, t.queue ∈ names := by
    intro t ht
    exact cover t.queue (queue_ne_nil_iff.mpr (List.mem_map_of_mem ht))
  calc s.waitingOn names
      = s.waiting.countP fun t => t.queue ∈ names := Store.waitingOn_eq distinct
    _ = s.waiting.length := List.countP_eq_length.mpr (by simpa using all)
    _ = (s.records.filter fun r => r.status.isWaiting).length := by
      rw [(inStep.perm nodup).length_eq, List.length_map]
    _ = s.stats.waiting := by rw [waiting_stats, List.countP_eq_length_filter]

end Store

/-- However clients call it, a store is well-formed; what waits on all its queues is
what it counts as scheduled, pending and retrying; and it counts every record
once. -/
theorem Run.wellFormed_and_counted {h : History} {s : Store} (run : Run h s)
    (few : Countable h) :
    s.WellFormed ∧
      (∀ names : List String, names.Nodup → (∀ q, s.queue q ≠ [] → q ∈ names) →
        s.waitingOn names = s.stats.scheduled + s.stats.pending + s.stats.retrying) ∧
      s.stats.scheduled + s.stats.pending + s.stats.active + s.stats.retrying +
        s.stats.completed + s.stats.archived = s.records.length := by
  refine ⟨run.wellFormed few, ?_, s.total_stats⟩
  intro names distinct cover
  exact run.inStep.waitingOn_eq run.ids_records.1 distinct cover

theorem wellFormed_and_counted_of_example :
    ∃ h s, replay exampleRequests = some (h, s) ∧ s.WellFormed ∧
      s.waitingOn ["mail", "post"] = s.stats.scheduled + s.stats.pending + s.stats.retrying := by
  obtain ⟨⟨h, s⟩, eq⟩ : ∃ p, replay exampleRequests = some p := ⟨_, rfl⟩
  have few : h.length < UInt32.size ∧ s.waiting.map Ticket.queue ⊆ ["mail", "post"] := by
    cases eq
    decide
  obtain ⟨wellFormed, counts, -⟩ := Run.wellFormed_and_counted (.of_replay eq) (.of_length few.1)
  refine ⟨h, s, eq, wellFormed, counts _ (by decide) ?_⟩
  intro q some
  exact few.2 (Store.queue_ne_nil_iff.mp some)

end JobQueue
