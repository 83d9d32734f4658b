import JobQueue.Proofs.Store.Life
import Mathlib.Data.List.Nodup

/-!
# Queues and records in step

A store keeps what waits apart from its records, so that the two could come to
differ.  They do not: `Store.InStep` says that a ticket is there for a message
exactly while its record waits, on the queue of the message, and that there are
no two tickets for one message.  `Run.inStep` has it of every store of a run.

Nothing here counts attempts, so any number of deliveries is allowed.
-/

namespace JobQueue

open History

/-- Whether the messages that wait are those whose records say so, each once. -/
structure Store.InStep (s : Store) : Prop where
  /-- No message waits twice. -/
  jobs_nodup : (s.waiting.map Ticket.job).Nodup
  /-- A message waits on its queue while its record says that it waits. -/
  mem_waiting_iff : ∀ t, t ∈ s.waiting ↔
    ∃ r, s.record? t.job = some r ∧ r.ticket = t ∧ r.status.isWaiting

namespace Store.InStep

variable {s : Store}

/-- A message waits on one queue only. -/
theorem eq_of_job_eq (inStep : s.InStep) {t t' : Ticket} (ht : t ∈ s.waiting)
    (ht' : t' ∈ s.waiting) (job : t.job = t'.job) : t = t' := by
  obtain ⟨r, hr, rfl, -⟩ := (inStep.mem_waiting_iff t).mp ht
  obtain ⟨r', hr', rfl, -⟩ := (inStep.mem_waiting_iff t').mp ht'
  rw [job, hr'] at hr
  cases hr
  rfl

theorem waiting_nodup (inStep : s.InStep) : s.waiting.Nodup :=
  .of_map Ticket.job inStep.jobs_nodup

/-- What is handed out next is the ticket of its record. -/
theorem ticket_eq (inStep : s.InStep) {queues : List String} {now : Instant} {t : Ticket}
    {r : Record} (next : s.next? queues now = some t) (found : s.record? t.job = some r) :
    r.ticket = t := by
  obtain ⟨r', hr', hticket, -⟩ :=
    (inStep.mem_waiting_iff t).mp (isReady_of_next? next).2.1
  rw [found] at hr'
  cases hr'
  exact hticket

/-- A message that a worker holds does not wait. -/
theorem job_not_mem (inStep : s.InStep) {r : Record} {id : JobId} (found : s.record? id = some r)
    (busy : ¬ r.status.isWaiting) : id ∉ s.waiting.map Ticket.job := by
  rintro hid
  obtain ⟨t, ht, rfl⟩ := List.mem_map.mp hid
  obtain ⟨r', hr', -, waits⟩ := (inStep.mem_waiting_iff t).mp ht
  rw [found] at hr'
  cases hr'
  exact busy waits

/-- A ticket stays or goes with its record. -/
theorem mem_waiting_congr (inStep : s.InStep) {s' : Store} {t : Ticket}
    (same : s'.record? t.job = s.record? t.job) :
    t ∈ s.waiting ↔ ∃ r, s'.record? t.job = some r ∧ r.ticket = t ∧ r.status.isWaiting := by
  rw [same]
  exact inStep.mem_waiting_iff t

/-- A new message comes in step. -/
theorem enqueued (inStep : s.InStep) {id : JobId} (absent : s.record? id = none) (m : Message)
    (now : Instant) : (s.enqueued id m now).InStep := by
  have fresh : id ∉ s.waiting.map Ticket.job := by
    intro hid
    obtain ⟨t, ht, rfl⟩ := List.mem_map.mp hid
    obtain ⟨r, hr, -⟩ := (inStep.mem_waiting_iff t).mp ht
    rw [absent] at hr
    cases hr
  have waits : (Record.ofMessage id m now).status.isWaiting := by
    simp only [Record.ofMessage]
    split <;> rfl
  constructor
  · simp only [Store.enqueued, List.map_append, List.map_singleton]
    refine List.nodup_append.mpr ⟨inStep.jobs_nodup, by simp, ?_⟩
    rintro a ha b hb rfl
    rw [List.mem_singleton] at hb
    exact fresh (hb ▸ ha)
  · intro t
    have hw : t ∈ (s.enqueued id m now).waiting ↔
        t ∈ s.waiting ∨ t = (Record.ofMessage id m now).ticket := by
      rw [Store.enqueued, List.mem_append, List.mem_singleton]
      rfl
    rw [hw]
    by_cases hid : t.job = id
    · have hrec : (s.enqueued id m now).record? t.job = some (.ofMessage id m now) := by
        rw [record?_enqueued, hid, absent, if_pos rfl, Option.none_or]
      rw [hrec]
      constructor
      · rintro (ht | rfl)
        · exact absurd (List.mem_map_of_mem ht) (hid ▸ fresh)
        · exact ⟨_, rfl, rfl, waits⟩
      · rintro ⟨r, hr, rfl, -⟩
        cases hr
        exact .inr rfl
    · have hrec : (s.enqueued id m now).record? t.job = s.record? t.job := by
        rw [record?_enqueued, if_neg (Ne.symm hid), Option.or_none]
      rw [← inStep.mem_waiting_congr hrec]
      constructor
      · rintro (ht | rfl)
        · exact ht
        · exact absurd rfl hid
      · exact .inl

/-- Handing a message out keeps the rest in step. -/
theorem handedOut (inStep : s.InStep) {t : Ticket} {r : Record} (ht : t ∈ s.waiting)
    (found : s.record? t.job = some r) (lease : LeaseToken) (now : Instant) :
    (s.handedOut t r lease now).InStep := by
  constructor
  · exact inStep.jobs_nodup.sublist (List.erase_sublist.map _)
  · intro t'
    have hw : t' ∈ (s.handedOut t r lease now).waiting ↔ t' ≠ t ∧ t' ∈ s.waiting :=
      inStep.waiting_nodup.mem_erase_iff
    rw [hw]
    by_cases hid : t'.job = t.job
    · rw [record?_handedOut found, if_pos hid]
      constructor
      · rintro ⟨hne, ht'⟩
        exact absurd (inStep.eq_of_job_eq ht' ht hid) hne
      · rintro ⟨r', hr', -, waits⟩
        cases hr'
        cases waits
    · have hrec : (s.handedOut t r lease now).record? t'.job = s.record? t'.job := by
        rw [record?_handedOut found, if_neg hid]
      rw [← inStep.mem_waiting_congr hrec]
      constructor
      · exact And.right
      · intro ht'
        exact ⟨fun e => hid (congrArg Ticket.job e), ht'⟩

/-- Settling a message that does not wait keeps the rest in step. -/
theorem settled (inStep : s.InStep) {id : JobId} {r : Record} (found : s.record? id = some r)
    (busy : ¬ r.status.isWaiting) (v : Verdict) (now : Instant) : (s.settled r v now).InStep := by
  have hid : r.id = id := id_of_record? found
  have gone := inStep.job_not_mem found busy
  have mem_tickets : ∀ t, t ∈ v.tickets r ↔
      t = r.ticket ∧ (r.settle now v).status.isWaiting := by
    intro t
    cases v <;>
      simp [Verdict.tickets, Record.settle, Record.complete, Record.retry, Record.archive,
        Status.isWaiting]
  constructor
  · simp only [Store.settled, List.map_append]
    refine List.nodup_append.mpr ⟨inStep.jobs_nodup, ?_, ?_⟩
    · cases v <;> simp [Verdict.tickets]
    · rintro a ha b hb rfl
      obtain ⟨t, ht, rfl⟩ := List.mem_map.mp hb
      rw [((mem_tickets t).mp ht).1] at ha
      exact gone (hid ▸ ha)
  · intro t
    have hw : t ∈ (s.settled r v now).waiting ↔ t ∈ s.waiting ∨ t ∈ v.tickets r :=
      List.mem_append
    rw [hw, mem_tickets]
    by_cases ht : t.job = id
    · rw [record?_settled found, if_pos ht]
      have hticket : (r.settle now v).ticket = r.ticket := by
        rw [Record.ticket, Record.settle_id, Record.settle_message, Record.ticket]
      constructor
      · rintro (h | ⟨rfl, waits⟩)
        · exact absurd (List.mem_map_of_mem h) (ht ▸ gone)
        · exact ⟨_, rfl, hticket, waits⟩
      · rintro ⟨r', hr', rfl, waits⟩
        cases hr'
        exact .inr ⟨hticket, waits⟩
    · have hrec : (s.settled r v now).record? t.job = s.record? t.job := by
        rw [record?_settled found, if_neg ht]
      rw [← inStep.mem_waiting_congr hrec]
      constructor
      · rintro (h | ⟨rfl, -⟩)
        · exact h
        · exact absurd hid ht
      · exact .inl

/-- Records that are forgotten do not wait. -/
theorem pruned (inStep : s.InStep) (nodup : (s.records.map Record.id).Nodup) (cutoff : Instant) :
    (s.prune cutoff).1.InStep := by
  constructor
  · exact inStep.jobs_nodup
  · intro t
    rw [record?_prune nodup]
    have hw : t ∈ (s.prune cutoff).1.waiting ↔ t ∈ s.waiting := .rfl
    rw [hw, inStep.mem_waiting_iff]
    have young : ∀ r : Record, r.status.isWaiting → isOutdated cutoff r = false := by
      intro r waits
      unfold isOutdated
      cases hs : r.status <;> simp_all [Status.isWaiting, Status.isTerminal]
    simp only [Option.filter_eq_some_iff]
    constructor
    · rintro ⟨r, hr, hticket, waits⟩
      exact ⟨r, ⟨hr, by rw [young r waits]; rfl⟩, hticket, waits⟩
    · rintro ⟨r, ⟨hr, -⟩, hticket, waits⟩
      exact ⟨r, hr, hticket, waits⟩

end Store.InStep

/-- In every store of a run, queues and records are in step. -/
theorem Run.inStep {h : History} {s : Store} (run : Run h s) : s.InStep := by
  induction run with
  | start => exact ⟨.nil, by simp [Store.record?]⟩
  | @call h s run q fresh ih =>
    have effect := s.perform_effect q
    generalize s.perform q = step at effect ⊢
    cases effect with
    | refused => exact ih
    | enqueued isOpen id m now =>
      exact ih.enqueued (run.record?_of_not_mem fresh) m now
    | nothing => exact ih
    | leased isOpen lease next found ready =>
      exact ih.handedOut (Store.isReady_of_next? next).2.1 found lease _
    | settled isOpen v now found held =>
      exact ih.settled found (run.not_isWaiting_of_lease found held) v now
    | pruned cutoff => exact ih.pruned run.ids_records.1 cutoff
    | closed => exact ⟨ih.jobs_nodup, ih.mem_waiting_iff⟩

end JobQueue
