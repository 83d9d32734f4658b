import JobQueue.Proofs.Store.Queues

/-!
# The order of messages

Which message an open store hands out, told by its records and its history.  A
message enters its queue when it is taken, and again whenever it is let wait for
another attempt; `EntersLast` says at which call it did so last.  What waits is in
the order of these calls (`Store.InOrder`), so the first ticket that may be handed
out is that of the message that came earliest.

`Store.HandsOut` says what it is that a store hands out, and what it leaves as it
is.
-/

namespace JobQueue

open History

/-! ## Entries -/

/-- The message that comes to wait by a call. -/
def Exchange.entered? : Exchange → Option JobId
  | { request := .enqueue id _ _, response := .enqueued _, .. } => some id
  | { request := .settle d (.retry _ _) _, response := .settled, .. } => some d.job
  | _ => none

namespace History

variable {h : History} {e : Exchange} {id : JobId} {i j : Nat}

/-- The message that comes to wait by the call with this number. -/
def enteredAt? (h : History) (i : Nat) : Option JobId := h[i]?.bind Exchange.entered?

/-- Whether a message comes to wait by the call with this number, and by none after
it. -/
def EntersLast (h : History) (id : JobId) (i : Nat) : Prop :=
  h.enteredAt? i = some id ∧ ∀ j, i < j → h.enteredAt? j ≠ some id

theorem enteredAt?_concat (h : History) (e : Exchange) (i : Nat) :
    enteredAt? (h ++ [e]) i = if i = h.length then e.entered? else enteredAt? h i := by
  unfold enteredAt?
  split
  · next eq => rw [eq, List.getElem?_concat_length, Option.bind_some]
  · next ne =>
    rcases Nat.lt_or_gt_of_ne ne with lt | gt
    · rw [List.getElem?_append_left lt]
    · rw [List.getElem?_eq_none (by simp; omega), List.getElem?_eq_none (by omega)]

theorem lt_length_of_enteredAt? (enters : h.enteredAt? i = some id) : i < h.length := by
  unfold enteredAt? at enters
  obtain ⟨e, he, -⟩ := Option.bind_eq_some_iff.mp enters
  exact (List.getElem?_eq_some_iff.mp he).1

/-- The last entry of a message is the call at the end, or it is what it was. -/
theorem entersLast_concat :
    EntersLast (h ++ [e]) id i ↔
      if e.entered? = some id then i = h.length else EntersLast h id i := by
  by_cases enters : e.entered? = some id
  · rw [if_pos enters]
    simp only [EntersLast, enteredAt?_concat]
    constructor
    · rintro ⟨now, later⟩
      by_contra ne
      rw [if_neg ne] at now
      have := later h.length (lt_length_of_enteredAt? now)
      rw [if_pos rfl] at this
      exact this enters
    · rintro rfl
      refine ⟨by rw [if_pos rfl, enters], ?_⟩
      intro j lt eq
      rw [if_neg (Nat.ne_of_gt lt)] at eq
      exact Nat.lt_asymm lt (lt_length_of_enteredAt? eq)
  · rw [if_neg enters]
    simp only [EntersLast, enteredAt?_concat]
    constructor
    · rintro ⟨now, later⟩
      have ne : i ≠ h.length := by
        rintro rfl
        rw [if_pos rfl] at now
        exact enters now
      rw [if_neg ne] at now
      refine ⟨now, fun j lt eq => later j lt ?_⟩
      rw [if_neg (Nat.ne_of_lt (lt_length_of_enteredAt? eq)), eq]
    · rintro ⟨now, later⟩
      refine ⟨by rw [if_neg (Nat.ne_of_lt (lt_length_of_enteredAt? now)), now], ?_⟩
      intro j lt
      split
      · exact enters
      · exact later j lt

/-- A message has one last entry. -/
theorem EntersLast.unique (first : EntersLast h id i) (second : EntersLast h id j) : i = j := by
  rcases Nat.lt_trichotomy i j with lt | eq | gt
  · exact absurd second.1 (first.2 j lt)
  · exact eq
  · exact absurd first.1 (second.2 i gt)

end History

/-! ## What waits is in order -/

/-- Whether what waits is in the order in which it came to wait. -/
structure Store.InOrder (s : Store) (h : History) : Prop where
  /-- Whatever waits came to wait by some call. -/
  entered : ∀ t ∈ s.waiting, ∃ i, EntersLast h t.job i
  /-- What came to wait earlier stands further to the front. -/
  ordered : s.waiting.Pairwise fun t t' =>
    ∀ i j, EntersLast h t.job i → EntersLast h t'.job j → i < j

namespace Store.InOrder

variable {s s' : Store} {h : History} {e : Exchange}

/-- Where nothing comes to wait, the rest stays in order. -/
theorem of_sublist (inOrder : s.InOrder h) (same : e.entered? = none)
    (sub : s'.waiting.Sublist s.waiting) : s'.InOrder (h ++ [e]) := by
  have old : ∀ {id i}, EntersLast (h ++ [e]) id i ↔ EntersLast h id i := by
    intro id i
    rw [entersLast_concat, same, if_neg nofun]
  constructor
  · intro t ht
    obtain ⟨i, enters⟩ := inOrder.entered t (sub.subset ht)
    exact ⟨i, old.mpr enters⟩
  · refine (inOrder.ordered.sublist sub).imp ?_
    intro t t' lt i j hi hj
    exact lt i j (old.mp hi) (old.mp hj)

/-- What comes to wait stands behind everything else. -/
theorem of_concat (inOrder : s.InOrder h) {t : Ticket} (enters : e.entered? = some t.job)
    (new : t.job ∉ s.waiting.map Ticket.job) (push : s'.waiting = s.waiting ++ [t]) :
    s'.InOrder (h ++ [e]) := by
  have old : ∀ t' ∈ s.waiting, ∀ i, EntersLast (h ++ [e]) t'.job i ↔ EntersLast h t'.job i := by
    intro t' ht' i
    rw [entersLast_concat, enters, if_neg]
    intro eq
    exact new (Option.some.inj eq ▸ List.mem_map_of_mem ht')
  have last : ∀ i, EntersLast (h ++ [e]) t.job i ↔ i = h.length := by
    intro i
    rw [entersLast_concat, if_pos enters]
  constructor
  · intro t' ht'
    rw [push, List.mem_append, List.mem_singleton] at ht'
    rcases ht' with ht' | rfl
    · obtain ⟨i, hi⟩ := inOrder.entered t' ht'
      exact ⟨i, (old t' ht' i).mpr hi⟩
    · exact ⟨h.length, (last _).mpr rfl⟩
  · rw [push, List.pairwise_append]
    refine ⟨?_, List.pairwise_singleton _ _, ?_⟩
    · refine inOrder.ordered.imp_of_mem ?_
      intro t₁ t₂ h₁ h₂ lt i j hi hj
      exact lt i j ((old t₁ h₁ i).mp hi) ((old t₂ h₂ j).mp hj)
    · intro t₁ h₁ t₂ h₂ i j hi hj
      rw [List.mem_singleton] at h₂
      subst h₂
      rw [(last j).mp hj]
      exact lt_length_of_enteredAt? ((old t₁ h₁ i).mp hi).1

end Store.InOrder

/-- In every store of a run, what waits is in order. -/
theorem Run.inOrder {h : History} {s : Store} (run : Run h s) : s.InOrder h := by
  induction run with
  | start => exact ⟨nofun, .nil⟩
  | @call h s run q fresh ih =>
    unfold Store.exchange
    have effect := s.perform_effect q
    generalize s.perform q = step at effect ⊢
    cases effect with
    | refused =>
      refine ih.of_sublist ?_ (.refl _)
      cases q with
      | settle d v now => cases v <;> rfl
      | _ => rfl
    | enqueued isOpen id m now =>
      refine ih.of_concat (t := (Record.ofMessage id m now).ticket) rfl ?_ rfl
      intro mem
      obtain ⟨t, ht, eq⟩ := List.mem_map.mp mem
      obtain ⟨r, found, -⟩ := (run.inStep.mem_waiting_iff t).mp ht
      exact fresh (run.id_mem_of_record? (eq ▸ found))
    | nothing => exact ih.of_sublist rfl (.refl _)
    | leased isOpen lease next found ready => exact ih.of_sublist rfl List.erase_sublist
    | @settled isOpen d v now r found held =>
      have busy := run.not_isWaiting_of_lease found held
      cases v with
      | ack => exact ih.of_sublist rfl (by simp [Store.settled, Verdict.tickets])
      | retry retryAt error =>
        refine ih.of_concat (t := r.ticket) ?_ ?_ rfl
        · rw [Record.ticket, Store.id_of_record? found]
          rfl
        · rw [Record.ticket, Store.id_of_record? found]
          exact run.inStep.job_not_mem found busy
      | archive error => exact ih.of_sublist rfl (by simp [Store.settled, Verdict.tickets])
    | pruned cutoff => exact ih.of_sublist rfl (.refl _)
    | closed => exact ih.of_sublist rfl (.refl _)

/-! ## What is handed out -/

namespace Store

variable {s : Store}

/-- What is handed out next is the first ticket that may be, of the first queue that
has one. -/
theorem next?_eq_some_iff {queues : List String} {now : Instant} {t : Ticket} :
    s.next? queues now = some t ↔
      (∃ before after, queues = before ++ t.queue :: after ∧
        ∀ t' ∈ s.waiting, s.isReady now t' → t'.queue ∉ before) ∧
      s.isReady now t ∧ ∃ front back, s.waiting = front ++ t :: back ∧
        ∀ t' ∈ front, t'.queue = t.queue → ¬ s.isReady now t' := by
  unfold next?
  rw [List.findSome?_eq_some_iff]
  simp only [List.find?_eq_some_iff_append, List.find?_eq_none, Bool.and_eq_true,
    decide_eq_true_eq, Bool.not_eq_true', Bool.and_eq_false_imp, Bool.not_eq_true]
  constructor
  · rintro ⟨before, q, after, rfl, ⟨⟨rfl, ready⟩, front, back, split, passed⟩, others⟩
    refine ⟨⟨before, after, rfl, ?_⟩, ready, front, back, split, passed⟩
    intro t' ht' ready' mem
    exact others _ mem t' ht' ⟨rfl, ready'⟩
  · rintro ⟨⟨before, after, rfl, others⟩, ready, front, back, split, passed⟩
    refine ⟨before, t.queue, after, rfl, ⟨⟨rfl, ready⟩, front, back, split, passed⟩, ?_⟩
    rintro q mem t' ht' ⟨rfl, ready'⟩
    exact others t' ht' ready' mem

theorem next?_eq_none_iff {queues : List String} {now : Instant} :
    s.next? queues now = none ↔ ∀ t ∈ s.waiting, s.isReady now t → t.queue ∉ queues := by
  unfold next?
  simp only [List.findSome?_eq_none_iff, List.find?_eq_none, Bool.and_eq_true, decide_eq_true_eq]
  constructor
  · rintro none t ht ready mem
    exact none _ mem t ht ⟨rfl, ready⟩
  · rintro none q mem t ht ⟨rfl, ready⟩
    exact none t ht ready mem

/-- What a store with a history hands out to who asks for some queues. -/
structure HandsOut (s : Store) (h : History) (queues : List String) (lease : LeaseToken)
    (now : Instant) (r : Record) (s' : Store) : Prop where
  /-- It hands out the message of one of its records. -/
  mem : r ∈ s.records
  /-- The message is due. -/
  isDue : r.IsDue now
  /-- No queue that was asked for before that of the message has a message that is
  due. -/
  first : ∃ before after, queues = before ++ r.message.queue :: after ∧
    ∀ r' ∈ s.records, r'.IsDue now → r'.message.queue ∉ before
  /-- Of the messages of its queue that are due it came to wait earliest. -/
  earliest : ∃ i, EntersLast h r.id i ∧
    ∀ r' ∈ s.records, r'.IsDue now → r'.message.queue = r.message.queue → r' ≠ r →
      ∃ j, EntersLast h r'.id j ∧ i < j
  /-- A message of its queue that came to wait earlier is not due yet. -/
  overtaken : ∀ r' ∈ s.records, r'.status.isWaiting → r'.message.queue = r.message.queue →
    ∀ i j, EntersLast h r.id i → EntersLast h r'.id j → j < i → r'.IsEarly now
  /-- The record is now of a message under the lease, with one more attempt. -/
  record?_eq : s'.record? r.id = some
    { r with status := .active, attempt := r.attempt + 1, lease := some lease, updatedAt := now }
  /-- The other records are as they were. -/
  others : ∀ id ≠ r.id, s'.record? id = s.record? id
  /-- The message waited on its queue. -/
  mem_queue : r.id ∈ s.queue r.message.queue
  /-- It does not wait any more, and the rest of its queue is as it was. -/
  queue_eq : r.id ∉ s'.queue r.message.queue ∧
    s'.queue r.message.queue = (s.queue r.message.queue).erase r.id
  /-- The other queues are as they were. -/
  queues_eq : ∀ q ≠ r.message.queue, s'.queue q = s.queue q
  /-- The store serves its clients. -/
  isOpen : s'.isOpen

namespace InStep

variable {front back : List Ticket} {t : Ticket}

theorem erase_eq (inStep : s.InStep) (split : s.waiting = front ++ t :: back) :
    s.waiting.erase t = front ++ back := by
  have nodup := inStep.waiting_nodup
  rw [split] at nodup ⊢
  have new : t ∉ front := fun mem =>
    (List.nodup_append.mp nodup).2.2 t mem t List.mem_cons_self rfl
  rw [List.erase_append_right _ new, List.erase_cons_head]

/-- The message that is handed out leaves its queue, and nothing else does. -/
theorem queue_handedOut (inStep : s.InStep) (split : s.waiting = front ++ t :: back) (r : Record)
    (lease : LeaseToken) (now : Instant) (q : String) :
    (s.handedOut t r lease now).queue q =
      if q = t.queue then (s.queue q).erase t.job else s.queue q := by
  have waiting : (s.handedOut t r lease now).waiting = front ++ back := inStep.erase_eq split
  have jobs := inStep.jobs_nodup
  rw [split, List.map_append, List.map_cons] at jobs
  unfold queue
  rw [waiting, split, List.filter_append, List.filter_append, List.map_append, List.map_append]
  split
  · next eq =>
    have new : t.job ∉ (front.filter fun t => t.queue = q).map Ticket.job := by
      intro mem
      have mem := (List.filter_sublist.map Ticket.job).subset mem
      exact (List.nodup_append.mp jobs).2.2 _ mem _ List.mem_cons_self rfl
    rw [List.filter_cons_of_pos (by simp [eq]), List.map_cons, List.erase_append_right _ new,
      List.erase_cons_head]
  · next ne => rw [List.filter_cons_of_neg (by simpa using Ne.symm ne)]

end InStep

end Store

namespace Run

variable {h : History} {s : Store} {now : Instant}

/-- A message that is due waits for whoever asks for its queue. -/
theorem isReady_of_isDue (run : Run h s) {r : Record} (hr : r ∈ s.records) (due : r.IsDue now) :
    r.ticket ∈ s.waiting ∧ s.isReady now r.ticket := by
  have found : s.record? r.ticket.job = some r := run.record?_of_mem hr
  have ready := Record.isDeliverable_iff.mpr due
  refine ⟨(run.inStep.mem_waiting_iff _).mpr ⟨r, found, rfl, ?_⟩, ?_⟩
  · exact Record.isWaiting_of_isDeliverable ready
  · exact Store.isReady_iff.mpr ⟨r, found, ready⟩

/-- What waits and is ready is a message that is due. -/
theorem isDue_of_isReady (run : Run h s) {t : Ticket} (ht : t ∈ s.waiting)
    (ready : s.isReady now t) : ∃ r ∈ s.records, r.IsDue now ∧ r.ticket = t := by
  obtain ⟨r, found, ready⟩ := Store.isReady_iff.mp ready
  obtain ⟨r', found', ticket, -⟩ := (run.inStep.mem_waiting_iff t).mp ht
  rw [found] at found'
  cases found'
  exact ⟨r, Store.mem_of_record? found, Record.isDeliverable_iff.mp ready, ticket⟩

/-- Nothing is handed out exactly if no message of the queues is due. -/
theorem next?_eq_none_iff (run : Run h s) {queues : List String} :
    s.next? queues now = none ↔ ∀ r ∈ s.records, r.IsDue now → r.message.queue ∉ queues := by
  rw [Store.next?_eq_none_iff]
  constructor
  · intro none r hr due
    obtain ⟨ht, ready⟩ := run.isReady_of_isDue hr due
    exact none r.ticket ht ready
  · intro none t ht ready
    obtain ⟨r, hr, due, rfl⟩ := run.isDue_of_isReady ht ready
    exact none r hr due

/-- The message that goes next entered its queue before every other one that is due
there. -/
theorem entered_first (run : Run h s) {queues : List String} {r : Record} (hr : r ∈ s.records)
    (next : s.next? queues now = some r.ticket) :
    ∃ i, EntersLast h r.id i ∧ ∀ r' ∈ s.records, r'.IsDue now →
      r'.message.queue = r.message.queue → r' ≠ r → ∃ j, EntersLast h r'.id j ∧ i < j := by
  have inOrder := run.inOrder
  obtain ⟨-, -, front, back, split, passed⟩ := Store.next?_eq_some_iff.mp next
  have behind : ∀ r' ∈ s.records, r'.IsDue now → r'.message.queue = r.message.queue → r' ≠ r →
      r'.ticket ∈ back := by
    intro r' hr' due' queue ne
    obtain ⟨ht', ready'⟩ := run.isReady_of_isDue hr' due'
    rw [split] at ht'
    rcases List.mem_append.mp ht' with ahead | ht'
    · exact absurd ready' (passed _ ahead queue)
    · rcases List.mem_cons.mp ht' with same | ht'
      · have found : s.record? r.ticket.job = some r := run.record?_of_mem hr
        have found' : s.record? r'.ticket.job = some r' := run.record?_of_mem hr'
        rw [same, found] at found'
        exact absurd (Option.some.inj found').symm ne
      · exact ht'
  have ordered := inOrder.ordered
  rw [split, List.pairwise_append, List.pairwise_cons] at ordered
  obtain ⟨i, enters⟩ := inOrder.entered r.ticket (by simp [split])
  refine ⟨i, enters, ?_⟩
  intro r' hr' due' queue ne
  have ht' := behind r' hr' due' queue ne
  obtain ⟨j, enters'⟩ := inOrder.entered r'.ticket (by simp [split, ht'])
  exact ⟨j, enters', ordered.2.1.1 r'.ticket ht' i j enters enters'⟩

/-- The record of the ticket that goes next is that of the message that is handed
out. -/
theorem handsOut (run : Run h s) (isOpen : s.isOpen) {queues : List String} (lease : LeaseToken)
    {r : Record} (hr : r ∈ s.records) (next : s.next? queues now = some r.ticket) :
    s.HandsOut h queues lease now r (s.handedOut r.ticket r lease now) := by
  have inStep := run.inStep
  have found : s.record? r.ticket.job = some r := run.record?_of_mem hr
  obtain ⟨⟨before, after, eq, others⟩, ready, front, back, split, -⟩ :=
    Store.next?_eq_some_iff.mp next
  have due : r.IsDue now := by
    obtain ⟨r', hr', ready'⟩ := Store.isReady_iff.mp ready
    rw [found] at hr'
    cases hr'
    exact Record.isDeliverable_iff.mp ready'
  obtain ⟨i, enters, earliest⟩ := run.entered_first hr next
  constructor
  · exact hr
  · exact due
  · refine ⟨before, after, eq, ?_⟩
    intro r' hr' due'
    obtain ⟨ht', ready'⟩ := run.isReady_of_isDue hr' due'
    exact others r'.ticket ht' ready'
  · exact ⟨i, enters, earliest⟩
  · intro r' hr' waits queue i' j enters₁ enters₂ lt
    cases enters₁.unique enters
    refine Record.isEarly_of_not_isDue waits ?_
    intro due'
    have ne : r' ≠ r := by
      rintro rfl
      exact Nat.lt_irrefl _ (enters₁.unique enters₂ ▸ lt)
    obtain ⟨j', enters', lt'⟩ := earliest r' hr' due' queue ne
    exact Nat.lt_asymm lt (enters'.unique enters₂ ▸ lt')
  · rw [Store.record?_handedOut found]
    exact if_pos rfl
  · intro id ne
    rw [Store.record?_handedOut found]
    exact if_neg ne
  · have mem : r.ticket ∈ s.waiting := by simp [split]
    exact Store.mem_queue.mpr mem
  · have left := (inStep.queue_handedOut split r lease now r.message.queue).trans (if_pos rfl)
    rw [left]
    refine ⟨List.Nodup.not_mem_erase ?_, rfl⟩
    exact inStep.jobs_nodup.sublist (List.filter_sublist.map _)
  · intro q ne
    rw [inStep.queue_handedOut split]
    exact if_neg ne
  · exact isOpen

/-- What an open store hands out, and that nothing changes where it has nothing to
hand out. -/
theorem dequeue_in_order (run : Run h s) (isOpen : s.isOpen) (queues : List String)
    (lease : LeaseToken) (now : Instant) :
    ((s.perform (.dequeue queues lease now)).answer = .dequeued none ↔
      ∀ r ∈ s.records, r.IsDue now → r.message.queue ∉ queues) ∧
    ((s.perform (.dequeue queues lease now)).answer = .dequeued none →
      (s.perform (.dequeue queues lease now)).store = s ∧
        (s.perform (.dequeue queues lease now)).event = none) ∧
    ((s.perform (.dequeue queues lease now)).answer ≠ .dequeued none →
      ∃ r, (s.perform (.dequeue queues lease now)).answer = .dequeued (some
          { job := r.id, message := r.message, attempt := r.attempt + 1, lease }) ∧
        s.HandsOut h queues lease now r (s.perform (.dequeue queues lease now)).store) := by
  rw [← run.next?_eq_none_iff, Store.perform_dequeue]
  cases next : s.next? queues now with
  | none =>
    rw [Store.dequeue_of_next?_eq_none isOpen lease next]
    exact ⟨iff_of_true rfl rfl, fun _ => ⟨rfl, rfl⟩, fun some => absurd rfl some⟩
  | some t =>
    obtain ⟨-, ht, ready⟩ := Store.isReady_of_next? next
    obtain ⟨r, hr, -, rfl⟩ := run.isDue_of_isReady ht ready
    rw [Store.dequeue_of_next?_eq_some isOpen lease next (run.record?_of_mem hr)]
    refine ⟨iff_of_false nofun nofun, nofun, fun _ => ⟨r, rfl, ?_⟩⟩
    exact run.handsOut isOpen lease hr next

theorem dequeue_in_order_of_example :
    ∃ h s, replay exampleRequests = some (h, s) ∧ s.isOpen ∧
      ∃ r, (s.perform (.dequeue ["mail", "post"] ⟨"z"⟩ .epoch)).answer = .dequeued (some
          { job := r.id, message := r.message, attempt := r.attempt + 1, lease := ⟨"z"⟩ }) ∧
        s.HandsOut h ["mail", "post"] ⟨"z"⟩ .epoch r
          (s.perform (.dequeue ["mail", "post"] ⟨"z"⟩ .epoch)).store := by
  obtain ⟨⟨h, s⟩, eq⟩ : ∃ p, replay exampleRequests = some p := ⟨_, rfl⟩
  have some : s.isOpen ∧
      (s.perform (.dequeue ["mail", "post"] ⟨"z"⟩ .epoch)).answer ≠ .dequeued none := by
    cases eq
    decide
  obtain ⟨-, -, handsOut⟩ :=
    Run.dequeue_in_order (.of_replay eq) some.1 ["mail", "post"] ⟨"z"⟩ .epoch
  exact ⟨h, s, eq, some.1, handsOut some.2⟩

end Run

end JobQueue
