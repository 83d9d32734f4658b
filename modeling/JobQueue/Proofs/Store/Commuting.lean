import JobQueue.Proofs.Store.Forgotten
import JobQueue.Proofs.Store.Order
import JobQueue.Proofs.Store.WellFormed
import Mathlib.Data.List.Find

/-!
# Calls that have nothing to do with each other

A call of a client that succeeds changes one record and one queue (`Store.Edit`), and
which ones these are depends on little: a pull looks at the queues that it asks for and
at the records of what waits there, a verdict looks at the record of its message
(`Store.LooksAlike`).  A call that edits none of this does not disturb another one, so
two such calls give the same whichever comes first.

`Store.reach?` has the queues that a call can touch.  A record is touched only together
with its queue, because what waits on a queue are messages of that queue
(`Store.InStep`); so calls with no queue in common do not disturb each other
(`Run.calls_commute`).  Neither do verdicts on two messages of one queue, except that two of
them that both let their message wait put them on the queue in their own order.
-/

namespace JobQueue

open History

/-- The message that a call names. -/
def Request.subject? : Request → Option JobId
  | enqueue id _ _ => some id
  | settle d _ _ => some d.job
  | _ => none

/-- The queues that a call asks for. -/
def Request.queues : Request → List String
  | dequeue queues _ _ => queues
  | _ => []

/-- Whether the identifier that a call brings is not known to another call either. -/
def Request.IsFreshBeside (q other : Request) : Prop :=
  match q with
  | enqueue id _ _ => other.subject? ≠ some id
  | _ => True

/-- Whether a verdict lets a message wait for another attempt. -/
def Verdict.isRetry : Verdict → Bool
  | retry _ _ => true
  | _ => false

theorem Verdict.tickets_of_not_isRetry {v : Verdict} (h : v.isRetry = false) (r : Record) :
    v.tickets r = [] := by
  cases v with
  | retry => cases h
  | _ => rfl

namespace Store

variable {s s' : Store} {q q' : Request}

/-! ## Stores that are the same to clients -/

/-- Whether two stores have the same records and the same queues. -/
structure Same (s s' : Store) : Prop where
  isOpen : s'.isOpen = s.isOpen
  record? : ∀ id, s'.record? id = s.record? id
  queue : ∀ name, s'.queue name = s.queue name

/-- The queues that a call can touch, if it is one that concerns queues: the queue of its
message, or all those that are asked for. -/
def reach? (s : Store) : Request → Option (List String)
  | .enqueue _ m _ => some [m.queue]
  | .dequeue queues _ _ => some queues
  | .settle d _ _ => some ((s.record? d.job).map fun r => r.message.queue).toList
  | .prune _ | .close => none

/-- Whether a call finds the same in two stores, as far as it looks. -/
structure LooksAlike (s s' : Store) (q : Request) : Prop where
  isOpen : s'.isOpen = s.isOpen
  /-- It looks at the queues that it asks for. -/
  queue : ∀ name ∈ q.queues, s'.queue name = s.queue name
  /-- It looks at the records of what waits there. -/
  waits : ∀ name ∈ q.queues, ∀ id ∈ s.queue name, s'.record? id = s.record? id
  /-- It looks at the record of the message that it settles. -/
  settles : ∀ d v now, q = .settle d v now → s'.record? d.job = s.record? d.job

/-! ## Looking at a queue -/

/-- What is found on a queue depends on the queue alone. -/
theorem find?_waiting (s : Store) (name : String) (now : Instant) :
    (s.waiting.find? fun t => t.queue = name && s.isReady now t) =
      ((s.queue name).find? fun id => s.isReady now ⟨id, name⟩).map (⟨·, name⟩) := by
  unfold queue
  induction s.waiting with
  | nil => rfl
  | cons t rest ih =>
    by_cases here : t.queue = name
    · subst here
      rw [List.filter_cons_of_pos (by simp), List.map_cons, List.find?_cons, List.find?_cons]
      cases s.isReady now t <;> simp [ih]
    · rw [List.filter_cons_of_neg (by simpa using here), List.find?_cons_of_neg (by simp [here])]
      exact ih

theorem next?_congr {queues : List String} {now : Instant}
    (queue : ∀ name ∈ queues, s'.queue name = s.queue name)
    (waits : ∀ name ∈ queues, ∀ id ∈ s.queue name, s'.record? id = s.record? id) :
    s'.next? queues now = s.next? queues now := by
  unfold next?
  induction queues with
  | nil => rfl
  | cons name rest ih =>
    have here : ((s.queue name).find? fun id => s'.isReady now ⟨id, name⟩) =
        (s.queue name).find? fun id => s.isReady now ⟨id, name⟩ := by
      refine List.find?_congr fun id mem => ?_
      rw [isReady, isReady, waits name List.mem_cons_self id mem]
    rw [List.findSome?_cons, List.findSome?_cons, find?_waiting, find?_waiting,
      queue name List.mem_cons_self, here,
      ih (fun other mem => queue other (List.mem_cons_of_mem _ mem))
        fun other mem => waits other (List.mem_cons_of_mem _ mem)]

/-! ## Edits -/

/-- What a call changes: the record of a message, and a queue. -/
structure Edit where
  /-- The message. -/
  job : JobId
  /-- Its record afterwards. -/
  record : Record
  /-- The queue. -/
  queue : String
  /-- What waits there afterwards, by what waited before. -/
  line : List JobId → List JobId

/-- What a call of a client changes, if it changes something. -/
def edit? (s : Store) : Request → Option Edit
  | .enqueue id m now =>
    if s.isOpen then
      some { job := id, record := .ofMessage id m now, queue := m.queue, line := (· ++ [id]) }
    else none
  | .dequeue queues lease now =>
    if s.isOpen then
      (s.next? queues now).bind fun t => (s.record? t.job).map fun r =>
        { job := t.job, record := r.start lease now, queue := t.queue, line := (·.erase t.job) }
    else none
  | .settle d v now =>
    if s.isOpen then
      ((s.record? d.job).filter fun r => r.lease = some d.lease).map fun r =>
        { job := d.job, record := r.settle now v, queue := r.message.queue
          line := (· ++ (v.tickets r).map Ticket.job) }
    else none
  | .prune _ | .close => none

/-- The record of a message after an edit. -/
def Edit.recordOf (e : Edit) (id : JobId) (r : Option Record) : Option Record :=
  if id = e.job then some e.record else r

/-- What waits on a queue after an edit. -/
def Edit.lineOf (e : Edit) (name : String) (ids : List JobId) : List JobId :=
  if name = e.queue then e.line ids else ids

/-- Whether a store comes about from another one by an edit, or by none. -/
structure Edited (s : Store) (edit : Option Edit) (s' : Store) : Prop where
  isOpen : s'.isOpen = s.isOpen
  record? : ∀ id, s'.record? id = edit.elim (s.record? id) (·.recordOf id (s.record? id))
  queue : ∀ name, s'.queue name = edit.elim (s.queue name) (·.lineOf name (s.queue name))

/-- A store that does not serve its clients refuses them. -/
theorem perform_of_closed (closed : ¬ s.isOpen) (reach : (s.reach? q).isSome) :
    s.perform q = { answer := .refused .unavailable, store := s, event := none } := by
  cases q with
  | enqueue | dequeue | settle =>
    simp [perform, enqueue, dequeue, settle, whenOpen, closed, Step.ofResult]
  | prune | close => cases reach

theorem edit?_of_closed (closed : ¬ s.isOpen) (q : Request) : s.edit? q = none := by
  cases q with
  | enqueue | dequeue | settle => exact if_neg closed
  | prune | close => rfl

theorem Edited.none (s : Store) : s.Edited none s := ⟨rfl, fun _ => rfl, fun _ => rfl⟩

theorem queue_concat (s : Store) (tickets : List Ticket) (name : String) :
    queue { s with waiting := s.waiting ++ tickets } name =
      s.queue name ++ (tickets.filter fun t => t.queue = name).map Ticket.job := by
  rw [queue, List.filter_append, List.map_append]
  rfl

theorem edited_enqueued {id : JobId} (absent : s.record? id = none) (m : Message) (now : Instant) :
    s.Edited
      (some { job := id, record := .ofMessage id m now, queue := m.queue, line := (· ++ [id]) })
      (s.enqueued id m now) where
  isOpen := rfl
  record? other := by
    rw [record?_enqueued, Option.elim_some, Edit.recordOf]
    by_cases here : other = id
    · rw [here, absent, if_pos rfl, Option.none_or]
    · rw [if_neg (Ne.symm here), if_neg here, Option.or_none]
  queue name := by
    show queue { s with waiting := s.waiting ++ [⟨id, m.queue⟩] } name = _
    rw [queue_concat, Option.elim_some, Edit.lineOf]
    by_cases here : name = m.queue
    · rw [if_pos here, List.filter_cons_of_pos (by simp [here])]
      rfl
    · rw [if_neg here, List.filter_cons_of_neg (by simpa using Ne.symm here)]
      exact List.append_nil _

theorem edited_handedOut (inStep : s.InStep) {t : Ticket} (waits : t ∈ s.waiting) {r : Record}
    (found : s.record? t.job = some r) (lease : LeaseToken) (now : Instant) :
    s.Edited
      (some { job := t.job, record := r.start lease now, queue := t.queue
              line := (·.erase t.job) })
      (s.handedOut t r lease now) where
  isOpen := rfl
  record? := record?_handedOut found lease now
  queue := by
    obtain ⟨front, back, split⟩ := List.append_of_mem waits
    exact inStep.queue_handedOut split r lease now

theorem edited_settled {id : JobId} {r : Record} (found : s.record? id = some r) (v : Verdict)
    (now : Instant) :
    s.Edited
      (some { job := id, record := r.settle now v, queue := r.message.queue
              line := (· ++ (v.tickets r).map Ticket.job) })
      (s.settled r v now) where
  isOpen := rfl
  record? := record?_settled found v now
  queue name := by
    show queue { s with waiting := s.waiting ++ v.tickets r } name = _
    rw [queue_concat, Option.elim_some, Edit.lineOf]
    by_cases here : name = r.message.queue
    · subst here
      cases v <;> simp [Verdict.tickets, Record.ticket]
    · cases v <;> simp [Verdict.tickets, Record.ticket, here, Ne.symm here]

/-- A call edits the store. -/
theorem edited_perform (inStep : s.InStep) (reach : (s.reach? q).isSome)
    (absent : ∀ id m now, q = .enqueue id m now → s.record? id = none) :
    s.Edited (s.edit? q) (s.perform q).store := by
  by_cases isOpen : s.isOpen
  · cases q with
    | enqueue id m now =>
      simp only [perform, enqueue_of_isOpen isOpen, edit?, if_pos isOpen]
      exact edited_enqueued (absent id m now rfl) m now
    | dequeue queues lease now =>
      simp only [edit?, if_pos isOpen]
      cases next : s.next? queues now with
      | none =>
        simp only [perform, dequeue_of_next?_eq_none isOpen lease next]
        exact .none s
      | some t =>
        obtain ⟨-, waits, ready⟩ := isReady_of_next? next
        obtain ⟨r, found, -⟩ := isReady_iff.mp ready
        simp only [perform, dequeue_of_next?_eq_some isOpen lease next found, Option.bind_some,
          found]
        exact edited_handedOut inStep waits found lease now
    | settle d v now =>
      simp only [edit?, if_pos isOpen]
      cases found : s.record? d.job with
      | none =>
        simp only [perform, settle_of_missing isOpen v now found]
        exact .none s
      | some r =>
        by_cases held : r.lease = some d.lease
        · simp only [perform, settle_of_held isOpen v now found held, Option.filter, held]
          exact edited_settled found v now
        · simp only [perform, settle_of_stale isOpen v now found held, Option.filter, held]
          exact .none s
    | prune | close => cases reach
  · rw [perform_of_closed isOpen reach, edit?_of_closed isOpen]
    exact .none s

/-! ## Calls that are not disturbed -/

namespace LooksAlike

theorem reach?_isSome (alike : s.LooksAlike s' q) (reach : (s.reach? q).isSome) :
    (s'.reach? q).isSome := by
  cases q with
  | prune | close => cases reach
  | _ => rfl

/-- What is found first is found again. -/
theorem next? {queues : List String} {lease : LeaseToken} {now : Instant}
    (alike : s.LooksAlike s' (.dequeue queues lease now)) :
    s'.next? queues now = s.next? queues now :=
  next?_congr alike.queue alike.waits

theorem record?_of_next? {queues : List String} {lease : LeaseToken} {now : Instant} {t : Ticket}
    (alike : s.LooksAlike s' (.dequeue queues lease now)) (next : s.next? queues now = some t) :
    s'.record? t.job = s.record? t.job := by
  obtain ⟨asked, waits, -⟩ := isReady_of_next? next
  exact alike.waits t.queue asked t.job (mem_queue.mpr waits)

theorem record?_of_settle {d : Delivery} {v : Verdict} {now : Instant}
    (alike : s.LooksAlike s' (.settle d v now)) : s'.record? d.job = s.record? d.job :=
  alike.settles d v now rfl

/-- A call makes the same edit. -/
theorem edit? (alike : s.LooksAlike s' q) : s'.edit? q = s.edit? q := by
  cases q with
  | enqueue id m now => simp only [Store.edit?, alike.isOpen]
  | dequeue queues lease now =>
    simp only [Store.edit?, alike.isOpen, alike.next?]
    cases next : s.next? queues now with
    | none => rfl
    | some t => rw [Option.bind_some, Option.bind_some, alike.record?_of_next? next]
  | settle d v now => simp only [Store.edit?, alike.isOpen, alike.record?_of_settle]
  | prune | close => rfl

/-- A call gets the same answer. -/
theorem exchange (alike : s.LooksAlike s' q) (reach : (s.reach? q).isSome) :
    s'.exchange q = s.exchange q := by
  by_cases isOpen : s.isOpen
  · have isOpen' : s'.isOpen := alike.isOpen ▸ isOpen
    cases q with
    | enqueue id m now =>
      simp only [Store.exchange, perform, enqueue_of_isOpen isOpen, enqueue_of_isOpen isOpen',
        Step.ofResult]
    | dequeue queues lease now =>
      have next' := alike.next?
      cases next : s.next? queues now with
      | none =>
        rw [next] at next'
        simp only [Store.exchange, perform, dequeue_of_next?_eq_none isOpen lease next,
          dequeue_of_next?_eq_none isOpen' lease next', Step.ofResult]
      | some t =>
        rw [next] at next'
        obtain ⟨r, found, -⟩ := isReady_iff.mp (isReady_of_next? next).2.2
        have found' := (alike.record?_of_next? next).trans found
        simp only [Store.exchange, perform, dequeue_of_next?_eq_some isOpen lease next found,
          dequeue_of_next?_eq_some isOpen' lease next' found', Step.ofResult]
    | settle d v now =>
      cases found : s.record? d.job with
      | none =>
        have found' := alike.record?_of_settle.trans found
        simp only [Store.exchange, perform, settle_of_missing isOpen v now found,
          settle_of_missing isOpen' v now found', Step.ofResult]
      | some r =>
        have found' := alike.record?_of_settle.trans found
        by_cases held : r.lease = some d.lease
        · simp only [Store.exchange, perform, settle_of_held isOpen v now found held,
            settle_of_held isOpen' v now found' held, Step.ofResult]
        · simp only [Store.exchange, perform, settle_of_stale isOpen v now found held,
            settle_of_stale isOpen' v now found' held, Step.ofResult]
    | prune | close => cases reach
  · have closed' : ¬ s'.isOpen := alike.isOpen ▸ isOpen
    rw [Store.exchange, Store.exchange, perform_of_closed isOpen reach,
      perform_of_closed closed' (alike.reach?_isSome reach)]

end LooksAlike

/-! ## Where an edit is -/

/-- An edit is on a queue that the call can touch. -/
theorem mem_reach_of_edit? {e : Edit} (edit : s.edit? q = some e) :
    ∃ names, s.reach? q = some names ∧ e.queue ∈ names := by
  by_cases isOpen : s.isOpen
  · cases q with
    | enqueue id m now =>
      rw [edit?, if_pos isOpen] at edit
      cases edit
      exact ⟨_, rfl, List.mem_singleton.mpr rfl⟩
    | dequeue queues lease now =>
      rw [edit?, if_pos isOpen] at edit
      obtain ⟨t, next, edit⟩ := Option.bind_eq_some_iff.mp edit
      obtain ⟨r, -, rfl⟩ := Option.map_eq_some_iff.mp edit
      exact ⟨_, rfl, (isReady_of_next? next).1⟩
    | settle d v now =>
      rw [edit?, if_pos isOpen] at edit
      obtain ⟨r, held, rfl⟩ := Option.map_eq_some_iff.mp edit
      have found := (Option.filter_eq_some_iff.mp held).1
      exact ⟨_, rfl, by simp [found]⟩
    | prune | close => cases edit
  · rw [edit?_of_closed isOpen] at edit
    cases edit

/-- An edit is about a new message, or one whose queue it is. -/
theorem record?_of_edit? (inStep : s.InStep) {e : Edit} (edit : s.edit? q = some e) :
    (∃ m now, q = .enqueue e.job m now) ∨
      ∃ r, s.record? e.job = some r ∧ r.message.queue = e.queue := by
  by_cases isOpen : s.isOpen
  · cases q with
    | enqueue id m now =>
      rw [edit?, if_pos isOpen] at edit
      cases edit
      exact .inl ⟨m, now, rfl⟩
    | dequeue queues lease now =>
      rw [edit?, if_pos isOpen] at edit
      obtain ⟨t, next, edit⟩ := Option.bind_eq_some_iff.mp edit
      obtain ⟨r, found, rfl⟩ := Option.map_eq_some_iff.mp edit
      exact .inr ⟨r, found, congrArg Ticket.queue (inStep.ticket_eq next found)⟩
    | settle d v now =>
      rw [edit?, if_pos isOpen] at edit
      obtain ⟨r, held, rfl⟩ := Option.map_eq_some_iff.mp edit
      exact .inr ⟨r, (Option.filter_eq_some_iff.mp held).1, rfl⟩
    | prune | close => cases edit
  · rw [edit?_of_closed isOpen] at edit
    cases edit

theorem job_of_edit?_settle {d : Delivery} {v : Verdict} {now : Instant} {e : Edit}
    (edit : s.edit? (.settle d v now) = some e) :
    e.job = d.job ∧ (v.isRetry = false → ∀ ids, e.line ids = ids) := by
  by_cases isOpen : s.isOpen
  · rw [edit?, if_pos isOpen] at edit
    obtain ⟨r, -, rfl⟩ := Option.map_eq_some_iff.mp edit
    refine ⟨rfl, fun last ids => ?_⟩
    rw [Verdict.tickets_of_not_isRetry last]
    exact List.append_nil ids
  · rw [edit?_of_closed isOpen] at edit
    cases edit

/-! ## Edits that do not meet -/

/-- Whether two edits do not meet: they are about two messages, and on one queue it does
not matter which of them comes first. -/
structure Edit.Apart (e e' : Edit) : Prop where
  job_ne : e.job ≠ e'.job
  line_comm : e.queue = e'.queue → ∀ ids, e.line (e'.line ids) = e'.line (e.line ids)

/-- Edits that do not meet lead to the same store in either order. -/
theorem Edited.comm {edit edit' : Option Edit} {s₁ s₂ s₁₂ s₂₁ : Store}
    (apart : ∀ e ∈ edit, ∀ e' ∈ edit', e.Apart e') (first : s.Edited edit s₁)
    (second : s₁.Edited edit' s₁₂) (first' : s.Edited edit' s₂) (second' : s₂.Edited edit s₂₁) :
    s₁₂.Same s₂₁ := by
  constructor
  · rw [second'.isOpen, first'.isOpen, second.isOpen, first.isOpen]
  · intro id
    rw [second'.record?, first'.record?, second.record?, first.record?]
    cases edit with
    | none => rfl
    | some e =>
      cases edit' with
      | none => rfl
      | some e' =>
        have apart := apart e rfl e' rfl
        simp only [Option.elim_some, Edit.recordOf]
        by_cases here : id = e.job
        · rw [if_pos here, if_neg (here ▸ apart.job_ne), if_pos here]
        · rw [if_neg here, if_neg here]
  · intro name
    rw [second'.queue, first'.queue, second.queue, first.queue]
    cases edit with
    | none => rfl
    | some e =>
      cases edit' with
      | none => rfl
      | some e' =>
        have apart := apart e rfl e' rfl
        simp only [Option.elim_some, Edit.lineOf]
        by_cases here : name = e.queue
        · by_cases there : name = e'.queue
          · rw [if_pos here, if_pos there, if_pos there, if_pos here]
            exact apart.line_comm (here.symm.trans there) _
          · rw [if_pos here, if_neg there, if_neg there, if_pos here]
        · rw [if_neg here, if_neg here]

/-- Whether two calls have nothing to do with each other. -/
inductive Apart (s : Store) (q q' : Request) : Prop where
  /-- They can touch no queue in common. -/
  | queues {names names' : List String} (reach : s.reach? q = some names)
    (reach' : s.reach? q' = some names') (disjoint : names.Disjoint names')
  /-- They are verdicts on two messages, not both of which are to wait again. -/
  | verdicts {d d' : Delivery} {v v' : Verdict} {now now' : Instant} (call : q = .settle d v now)
    (call' : q' = .settle d' v' now') (jobs : d.job ≠ d'.job) (single : ¬ (v.isRetry ∧ v'.isRetry))

namespace Apart

theorem symm (apart : s.Apart q q') : s.Apart q' q := by
  cases apart with
  | queues reach reach' disjoint => exact .queues reach' reach fun _ mem mem' => disjoint mem' mem
  | verdicts call call' jobs single =>
    exact .verdicts call' call (Ne.symm jobs) fun both => single both.symm

theorem reach?_isSome (apart : s.Apart q q') : (s.reach? q).isSome := by
  cases apart with
  | queues reach => rw [reach, Option.isSome_some]
  | verdicts call => rw [call]; rfl

/-- Whatever calls that have nothing to do with each other edit does not meet. -/
theorem edits (apart : s.Apart q q') (inStep : s.InStep)
    (absent : ∀ id m now, q = .enqueue id m now → s.record? id = none)
    (absent' : ∀ id m now, q' = .enqueue id m now → s.record? id = none)
    (beside : q.IsFreshBeside q') {e e' : Edit} (edit : s.edit? q = some e)
    (edit' : s.edit? q' = some e') : e.Apart e' := by
  cases apart with
  | queues reach reach' disjoint =>
    obtain ⟨_, eq, mem⟩ := mem_reach_of_edit? edit
    obtain ⟨_, eq', mem'⟩ := mem_reach_of_edit? edit'
    cases reach.symm.trans eq
    cases reach'.symm.trans eq'
    have ne : e.queue ≠ e'.queue := fun same => disjoint mem (same ▸ mem')
    refine ⟨fun job => ?_, fun same => absurd same ne⟩
    rcases record?_of_edit? inStep edit with ⟨m, now, rfl⟩ | ⟨r, found, queue⟩
    · rcases record?_of_edit? inStep edit' with ⟨m', now', rfl⟩ | ⟨r', found', -⟩
      · exact beside (congrArg some job.symm)
      · rw [← job, absent _ m now rfl] at found'
        cases found'
    · rcases record?_of_edit? inStep edit' with ⟨m', now', rfl⟩ | ⟨r', found', queue'⟩
      · rw [job, absent' _ m' now' rfl] at found
        cases found
      · rw [job, found'] at found
        cases found
        exact ne (queue.symm.trans queue')
  | @verdicts d d' v v' now now' call call' jobs single =>
    subst call
    subst call'
    obtain ⟨job, line⟩ := job_of_edit?_settle edit
    obtain ⟨job', line'⟩ := job_of_edit?_settle edit'
    refine ⟨fun same => jobs (job.symm.trans (same.trans job')), fun _ ids => ?_⟩
    by_cases waits : v.isRetry
    · have last' := Bool.eq_false_iff.mpr fun waits' => single ⟨waits, waits'⟩
      rw [line' last', line' last']
    · have last := Bool.eq_false_iff.mpr waits
      rw [line last, line last]

/-- A call finds what it would have found before one that has nothing to do with it. -/
theorem looksAlike (apart : s.Apart q q') (inStep : s.InStep)
    (absent' : ∀ id m now, q' = .enqueue id m now → s.record? id = none)
    (beside' : q'.IsFreshBeside q) : s.LooksAlike (s.perform q').store q := by
  have edited := edited_perform inStep apart.symm.reach?_isSome absent'
  cases edit : s.edit? q' with
  | none =>
    rw [edit] at edited
    exact ⟨edited.isOpen, fun name _ => edited.queue name, fun _ _ id _ => edited.record? id,
      fun d _ _ _ => edited.record? d.job⟩
  | some e =>
    rw [edit] at edited
    have away : ∀ id, id ≠ e.job → (s.perform q').store.record? id = s.record? id :=
      fun id ne => (edited.record? id).trans (if_neg ne)
    have ne_of_asked : ∀ name ∈ q.queues, name ≠ e.queue := by
      rintro name mem rfl
      cases q with
      | dequeue queues lease now =>
        cases apart with
        | queues reach reach' disjoint =>
          cases reach
          obtain ⟨_, eq, mem'⟩ := mem_reach_of_edit? edit
          cases reach'.symm.trans eq
          exact disjoint mem mem'
        | verdicts call => cases call
      | _ => cases mem
    refine ⟨edited.isOpen, ?_, ?_, ?_⟩
    · intro name mem
      exact (edited.queue name).trans (if_neg (ne_of_asked name mem))
    · intro name mem id waits
      refine away id ?_
      rintro rfl
      obtain ⟨r, found, -, queue⟩ := (inStep.mem_queue_iff name e.job).mp waits
      rcases record?_of_edit? inStep edit with ⟨m, now, rfl⟩ | ⟨r', found', queue'⟩
      · rw [absent' _ m now rfl] at found
        cases found
      · rw [found'] at found
        cases found
        exact ne_of_asked name mem (queue.symm.trans queue')
    · rintro d v now rfl
      refine away d.job fun job => ?_
      cases apart with
      | queues reach reach' disjoint =>
        rcases record?_of_edit? inStep edit with ⟨m, now', rfl⟩ | ⟨r, found, queue⟩
        · exact beside' (congrArg some job)
        · obtain ⟨_, eq, mem'⟩ := mem_reach_of_edit? edit
          cases reach'.symm.trans eq
          rw [reach?, job, found] at reach
          cases reach
          exact disjoint (by simp) (queue ▸ mem')
      | verdicts call call' jobs single =>
        cases call
        subst call'
        exact jobs (job.trans (job_of_edit?_settle edit).1)

end Apart

/-- Whether it does not matter to anybody which of two calls comes first. -/
structure Commute (s : Store) (q q' : Request) : Prop where
  /-- One gets the same answer, and the same is told of it. -/
  exchange : (s.perform q').store.exchange q = s.exchange q
  /-- So does the other one. -/
  exchange' : (s.perform q).store.exchange q' = s.exchange q'
  /-- Both lead to the same records and queues. -/
  same : ((s.perform q).store.perform q').store.Same ((s.perform q').store.perform q).store

end Store

namespace Run

variable {h : History} {s : Store} {q q' : Request}

/-- The message that a fresh call brings is not there. -/
theorem absent (run : Run h s) (fresh : q.IsFresh h) :
    ∀ id m now, q = .enqueue id m now → s.record? id = none := by
  rintro id m now rfl
  exact run.record?_of_not_mem fresh

/-- It is not there after another call either, which does not know of it. -/
theorem absent_perform (run : Run h s) (fresh : q.IsFresh h) (beside : q.IsFreshBeside q') :
    ∀ id m now, q = .enqueue id m now → (s.perform q').store.record? id = none := by
  rintro id m now rfl
  refine Store.record?_perform_of_none (run.record?_of_not_mem fresh) fun m' now' other => ?_
  exact beside (congrArg Request.subject? other)

/-- Calls that have nothing to do with each other give the same in either order. -/
theorem calls_commute (run : Run h s) (fresh : q.IsFresh h) (fresh' : q'.IsFresh h)
    (beside : q.IsFreshBeside q') (beside' : q'.IsFreshBeside q) (apart : s.Apart q q') :
    s.Commute q q' := by
  have absent := run.absent fresh
  have absent' := run.absent fresh'
  have alike := apart.looksAlike run.inStep absent' beside'
  have alike' := apart.symm.looksAlike run.inStep absent beside
  have reach := apart.reach?_isSome
  have reach' := apart.symm.reach?_isSome
  refine ⟨alike.exchange reach, alike'.exchange reach', ?_⟩
  have second := Store.edited_perform (run.call q fresh).inStep (alike'.reach?_isSome reach')
    (run.absent_perform fresh' beside')
  have second' := Store.edited_perform (run.call q' fresh').inStep (alike.reach?_isSome reach)
    (run.absent_perform fresh beside)
  rw [alike'.edit?] at second
  rw [alike.edit?] at second'
  refine Store.Edited.comm ?_ (Store.edited_perform run.inStep reach absent) second
    (Store.edited_perform run.inStep reach' absent') second'
  intro e edit e' edit'
  exact apart.edits run.inStep absent absent' beside edit edit'

/-- A pull from one queue beside a verdict on a message of another one; and a verdict that
lets a message wait beside one that ends another message of its queue. -/
theorem calls_commute_of_example :
    let letter (queue : String) : Message :=
      { type := "letter", queue, envelope := [], maxRetries := 2, processAt := .epoch
        timeout := none }
    let first : Delivery := ⟨⟨"1"⟩, letter "mail", 1, ⟨"x"⟩⟩
    let second : Delivery := ⟨⟨"2"⟩, letter "mail", 1, ⟨"y"⟩⟩
    let retry : Request := .settle first (.retry .epoch "late") .epoch
    ∃ h s, replay [.enqueue ⟨"1"⟩ (letter "mail") .epoch, .enqueue ⟨"2"⟩ (letter "mail") .epoch,
        .enqueue ⟨"3"⟩ (letter "post") .epoch, .dequeue ["mail"] ⟨"x"⟩ .epoch,
        .dequeue ["mail"] ⟨"y"⟩ .epoch] = some (h, s) ∧
      s.Apart retry (.dequeue ["none", "post"] ⟨"z"⟩ .epoch) ∧
        s.Commute retry (.dequeue ["none", "post"] ⟨"z"⟩ .epoch) ∧
      s.Apart retry (.settle second .ack .epoch) ∧ s.Commute retry (.settle second .ack .epoch) := by
  intro letter first second retry
  obtain ⟨⟨h, s⟩, eq⟩ : ∃ p, replay [.enqueue ⟨"1"⟩ (letter "mail") .epoch,
      .enqueue ⟨"2"⟩ (letter "mail") .epoch, .enqueue ⟨"3"⟩ (letter "post") .epoch,
      .dequeue ["mail"] ⟨"x"⟩ .epoch, .dequeue ["mail"] ⟨"y"⟩ .epoch] = some p := ⟨_, rfl⟩
  have run := Run.of_replay eq
  have fresh : (Request.dequeue ["none", "post"] ⟨"z"⟩ .epoch).IsFresh h ∧
      s.reach? retry = some ["mail"] := by
    cases eq
    decide
  have queues : s.Apart retry (.dequeue ["none", "post"] ⟨"z"⟩ .epoch) :=
    .queues fresh.2 rfl (by simp)
  have verdicts : s.Apart retry (.settle second .ack .epoch) :=
    .verdicts rfl rfl (by decide) (by decide)
  exact ⟨h, s, eq, queues, run.calls_commute trivial fresh.1 trivial trivial queues, verdicts,
    run.calls_commute trivial trivial trivial trivial verdicts⟩

end Run

end JobQueue
