import JobQueue.Proofs.Store.Leases

/-!
# Leases that are held

A lease gets into a record when a message is handed out under it
(`Run.exists_of_lease_perform`), and leaves it when the message is settled under it
(`Run.held_perform`).  On a store that is open, whoever settles a delivery sees to it
that its lease is in no record any more, whether the verdict is accepted or not
(`Run.lease_ne_of_settle`): if it is refused, somebody else was quicker, and there is a
verdict under this lease all the same (`Run.isAnswered_settle`).
-/

namespace JobQueue

open History

/-- Whether a verdict under the lease of a delivery was accepted. -/
def History.IsAnswered (h : History) (d : Delivery) : Prop :=
  ∃ x ∈ verdicts h, x.1.job = d.job ∧ x.1.lease = d.lease

theorem History.IsAnswered.append {h : History} {d : Delivery} (answered : IsAnswered h d)
    (later : History) : IsAnswered (h ++ later) d := by
  obtain ⟨x, mem, job, lease⟩ := answered
  refine ⟨x, ?_, job, lease⟩
  rw [verdicts_append]
  exact List.mem_append_left _ mem

namespace Life

variable {id : JobId} {m : Message} {born : Instant} {ms : List Moment} {r : Record}

/-- A message that was handed out is under the lease, or was settled under it. -/
theorem lease_or_settled (life : Life id m born ms r) {d : Delivery}
    (given : d ∈ ms.filterMap Moment.leased?) :
    r.lease = some d.lease ∨ ∃ d' v now, .settled d' v now ∈ ms ∧ d'.lease = d.lease := by
  induction life with
  | fresh => cases given
  | @leased ms r life lease now ready ih =>
    rw [List.filterMap_append] at given
    rcases List.mem_append.mp given with before | last
    · rcases ih before with held | ⟨d', v, t, mem, same⟩
      · -- a message under a lease is not handed out
        have active := life.lease_isSome_iff.mp (by rw [held]; rfl)
        have waits := Record.isWaiting_of_isDeliverable ready
        rw [active] at waits
        cases waits
      · exact .inr ⟨d', v, t, List.mem_append_left _ mem, same⟩
    · cases List.mem_singleton.mp last
      exact .inl rfl
  | @settled ms r life d' v now held ih =>
    rw [List.filterMap_append] at given
    rcases ih (by simpa [Moment.leased?] using given) with under | ⟨d'', v', t, mem, same⟩
    · exact .inr ⟨d', v, now, by simp, Option.some.inj (held.symm.trans under)⟩
    · exact .inr ⟨d'', v', t, List.mem_append_left _ mem, same⟩

/-- A message that was handed out is under a lease, waits for another attempt, or is over. -/
theorem status_of_handed (life : Life id m born ms r) (handed : ms ≠ []) :
    r.status = .active ∨ (∃ retryAt, r.status = .retrying retryAt) ∨ r.status.isTerminal := by
  cases life with
  | fresh => exact absurd rfl handed
  | leased => exact .inl rfl
  | settled life v now held =>
    cases v with
    | ack => exact .inr (.inr rfl)
    | retry retryAt error => exact .inr (.inl ⟨retryAt, rfl⟩)
    | archive error => exact .inr (.inr rfl)

end Life

namespace Run

variable {h : History} {s : Store} {id : JobId} {r : Record} {lease : LeaseToken}

/-- A message that is held under a lease stays so until it is settled under it. -/
theorem held_perform (run : Run h s) {q : Request} (fresh : q.IsFresh h) {id : JobId} {r : Record}
    (found : s.record? id = some r) {lease : LeaseToken} (held : r.lease = some lease) :
    ((s.perform q).store.record? id = some r ∧
        ∀ x, (s.exchange q).moment? = some x → x.delivery.job ≠ id) ∨
      ∃ d v now, q = .settle d v now ∧ d.job = id ∧ d.lease = lease ∧
        (s.perform q).answer = .settled := by
  have others : ∀ m now, q ≠ .enqueue id m now := by
    rintro m now rfl
    exact fresh (run.id_mem_of_record? found)
  have knows : s.Knows id r := .inl found
  obtain ⟨r', makes, knows⟩ := knows.call run.ids_records.1 others
  cases makes with
  | same other =>
    refine .inl ⟨knows.resolve_right fun gone => ?_, other⟩
    obtain ⟨m, born, -, life⟩ := run.life_of_record? found
    have active := life.lease_isSome_iff.mp (by rw [held]; rfl)
    have ended := gone.2
    rw [active] at ended
    cases ended
  | leased ready =>
    exact absurd (Record.isWaiting_of_isDeliverable ready) (run.not_isWaiting_of_lease found held)
  | @settled d v now job held' answer =>
    exact .inr ⟨d, v, now, rfl, job, Option.some.inj (held'.symm.trans held), answer⟩

/-- A message that is held under a lease was handed out under it. -/
theorem delivery_mem (run : Run h s) (found : s.record? id = some r)
    (held : r.lease = some lease) : r.delivery lease ∈ deliveries h := by
  obtain ⟨m, born, -, life⟩ := run.life_of_record? found
  obtain ⟨now, last⟩ := life.getLast?_of_lease held
  have given : r.delivery lease ∈ deliveriesOf h id := by
    rw [deliveriesOf_eq]
    exact List.mem_filterMap.mpr ⟨_, List.mem_of_getLast? last, rfl⟩
  exact List.mem_of_mem_filter given

/-- A lease in a record was there before, or the message is handed out under it. -/
theorem exists_of_lease_perform (run : Run h s) {q : Request}
    (found : (s.perform q).store.record? id = some r) (held : r.lease = some lease) :
    s.record? id = some r ∨ (s.exchange q).delivery? = some (r.delivery lease) := by
  unfold Store.exchange
  have effect := s.perform_effect q
  generalize s.perform q = step at effect found ⊢
  cases effect with
  | refused => exact .inl found
  | enqueued isOpen id' m now =>
    rw [Store.record?_enqueued] at found
    rcases Option.or_eq_some_iff.mp found with old | ⟨-, new⟩
    · exact .inl old
    · split at new
      · cases new
        cases held
      · cases new
  | nothing => exact .inl found
  | leased isOpen lease' next found' ready =>
    rw [Store.record?_handedOut found'] at found
    split at found
    · cases found
      cases held
      exact .inr rfl
    · exact .inl found
  | settled isOpen v now found' held' =>
    rw [Store.record?_settled found'] at found
    split at found
    · cases found
      rw [Record.settle_lease] at held
      cases held
    · exact .inl found
  | pruned cutoff =>
    rw [Store.record?_prune run.ids_records.1] at found
    exact .inl (Option.filter_eq_some_iff.mp found).1
  | closed => exact .inl found

/-- When somebody has settled a delivery, no message is held under its lease. -/
theorem lease_ne_of_settle (run : Run h s) (isOpen : s.isOpen) {d : Delivery}
    (given : d ∈ deliveries h) {v : Verdict} {now : Instant}
    (found : (s.perform (.settle d v now)).store.record? id = some r) :
    r.lease ≠ some d.lease := by
  intro held
  rcases run.exists_of_lease_perform found held with before | new
  · have same := eq_of_lease_eq run.leases_nodup (run.delivery_mem before held) given rfl
    have job : d.job = id := by rw [← same, Record.delivery, Store.id_of_record? before]
    subst job
    rw [Store.perform_settle, Store.settle_of_held isOpen v now before held] at found
    have found : (s.settled r v now).record? d.job = some r := found
    rw [Store.record?_settled before, if_pos rfl] at found
    rw [← Option.some.inj found, Record.settle_lease] at held
    cases held
  · obtain ⟨_, _, _, _, request, -⟩ := Store.delivery?_exchange new
    cases request

/-- When somebody has settled a delivery, there is a verdict under its lease. -/
theorem isAnswered_settle (run : Run h s) (isOpen : s.isOpen) {d : Delivery}
    (given : d ∈ deliveries h) (v : Verdict) (now : Instant) :
    IsAnswered (h ++ [s.exchange (.settle d v now)]) d := by
  have run' := run.call (.settle d v now) trivial
  have given' := mem_deliveries_append given [s.exchange (.settle d v now)]
  obtain ⟨⟨id, m, born⟩, taken, rfl⟩ := List.mem_map.mp (run'.job_mem_ids given')
  obtain ⟨r, life, knows⟩ := run'.life taken
  have handed := mem_deliveriesOf.mpr given'
  rw [deliveriesOf_eq] at handed
  rcases life.lease_or_settled handed with held | ⟨d', v', t, mem, same⟩
  · rcases knows with found | ⟨-, ended⟩
    · exact absurd held (run.lease_ne_of_settle isOpen given found)
    · rw [life.lease_isSome_iff.mp (by rw [held]; rfl)] at ended
      cases ended
  · have job : d'.job = d.job := of_decide_eq_true (List.mem_filter.mp mem).2
    exact ⟨(d', v'), mem_verdicts_iff.mpr ⟨t, job ▸ mem⟩, job, same⟩

/-- When there is a verdict under the lease of a delivery, no message is held under it. -/
theorem lease_ne_of_isAnswered (run : Run h s) {d : Delivery} (given : d ∈ deliveries h)
    (answered : IsAnswered h d) (found : s.record? id = some r) : r.lease ≠ some d.lease := by
  intro held
  obtain ⟨⟨d', v⟩, mem, job, same⟩ := answered
  have given' := eq_of_lease_eq run.leases_nodup (run.delivery_mem found held) given rfl
  obtain ⟨m, born, -, life⟩ := run.life_of_record? found
  obtain ⟨now, settled⟩ := mem_verdicts_iff.mp mem
  have about : d'.job = id := by
    rw [job, ← given']
    exact Store.id_of_record? found
  rw [about] at settled
  exact life.ne_of_settled (run.leases_of_momentsOf_nodup id) held settled same

end Run

end JobQueue
