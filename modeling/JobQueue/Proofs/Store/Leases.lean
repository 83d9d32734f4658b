import JobQueue.Proofs.Store.Forgotten
import JobQueue.Proofs.Store.Life
import Mathlib.Data.List.Nodup

/-!
# Exclusive leases

Clients may settle any delivery that they ever got, in any order and as often as
they like.  Still a message is only ever in the hands of one of them:
`History.Exclusive` has it of the deliveries and the verdicts of a history, and
`Store.Settles` says which verdicts the store accepts next, and how it refuses the
others.

The argument is about lives.  A lease is given once, so a verdict that was
accepted under a lease comes right after the delivery that gave it
(`Moment.Follows`), and a message is under a lease exactly if its last delivery
gave it and nobody has settled that delivery (`Life.lease_eq_iff`).
-/

namespace JobQueue

open History

/-! ## Moments between two deliveries -/

/-- Between a delivery and the next one is one verdict, which lets the message
wait. -/
theorem Moment.eq_settled_of_isChain {ms : List Moment} {d₁ d₂ : Delivery} {t₁ t₂ : Instant}
    (chain : (leased d₁ t₁ :: ms ++ [leased d₂ t₂]).IsChain Follows)
    (none : ms.filterMap Moment.leased? = []) :
    ∃ d retryAt error now, ms = [.settled d (.retry retryAt error) now] ∧ d.lease = d₁.lease := by
  rw [List.filterMap_eq_nil_iff] at none
  match ms, chain, none with
  | [], chain, _ =>
    have follows : Follows (.leased d₁ t₁) (.leased d₂ t₂) := by simpa using chain
    exact follows.elim
  | [.leased d t], _, none => cases none _ List.mem_cons_self
  | [.settled d v t], chain, _ =>
    obtain ⟨first, last⟩ : Follows (.leased d₁ t₁) (.settled d v t) ∧
      Follows (.settled d v t) (.leased d₂ t₂) := by simpa using chain
    cases v with
    | ack => exact last.elim
    | retry retryAt error => exact ⟨d, retryAt, error, t, rfl, first⟩
    | archive error => exact last.elim
  | .leased d t :: _ :: _, _, none => cases none _ List.mem_cons_self
  | _ :: .leased d t :: _, _, none => cases none _ (List.mem_cons_of_mem _ List.mem_cons_self)
  | .settled d v t :: .settled d' v' t' :: rest, chain, _ =>
    have follows : Follows (.settled d v t) (.settled d' v' t') := by
      rw [List.cons_append, List.cons_append, List.isChain_cons_cons, List.cons_append,
        List.isChain_cons_cons] at chain
      exact chain.2.1
    cases v <;> exact follows.elim

/-! ## Leases in a life -/

namespace Life

variable {id : JobId} {m : Message} {born : Instant} {ms : List Moment} {r : Record}
  {lease : LeaseToken}

/-- Only what was handed out is settled. -/
theorem exists_of_settled (life : Life id m born ms r) {d : Delivery} {v : Verdict} {now : Instant}
    (mem : .settled d v now ∈ ms) : ∃ d' ∈ ms.filterMap Moment.leased?, d'.lease = d.lease := by
  have grow : ∀ {ms : List Moment} {x : Moment},
      (∃ d' ∈ ms.filterMap Moment.leased?, d'.lease = d.lease) →
        ∃ d' ∈ (ms ++ [x]).filterMap Moment.leased?, d'.lease = d.lease := by
    rintro ms x ⟨d', hd', eq⟩
    exact ⟨d', by rw [List.filterMap_append]; exact List.mem_append_left _ hd', eq⟩
  induction life with
  | fresh => cases mem
  | leased life lease ready ih =>
    refine grow (ih ?_)
    simpa using mem
  | settled life v' now' held ih =>
    rcases List.mem_append.mp mem with before | last
    · exact grow (ih before)
    · rw [List.mem_singleton] at last
      cases last
      obtain ⟨t, hl⟩ := life.getLast?_of_lease held
      exact grow ⟨_, List.mem_filterMap.mpr ⟨_, List.mem_of_getLast? hl, rfl⟩, rfl⟩

/-- Nobody has settled the delivery that gave the lease of a message. -/
theorem ne_of_settled (life : Life id m born ms r)
    (nodup : ((ms.filterMap Moment.leased?).map Delivery.lease).Nodup)
    (held : r.lease = some lease) {d : Delivery} {v : Verdict} {now : Instant}
    (mem : .settled d v now ∈ ms) : d.lease ≠ lease := by
  cases life with
  | fresh => cases mem
  | @leased ms r life lease' now' ready =>
    cases held
    obtain ⟨d', hd', eq⟩ := life.exists_of_settled (by simpa using mem)
    rw [List.filterMap_append, List.map_append, List.nodup_append] at nodup
    rw [← eq]
    exact nodup.2.2 _ (List.mem_map_of_mem hd') _ List.mem_cons_self
  | settled life v' now' held' =>
    rw [Record.settle_lease] at held
    cases held

/-- A message is under a lease exactly if its last delivery gave it and nobody has
settled that delivery. -/
theorem lease_eq_iff (life : Life id m born ms r)
    (nodup : ((ms.filterMap Moment.leased?).map Delivery.lease).Nodup) :
    r.lease = some lease ↔
      (∃ d, (ms.filterMap Moment.leased?).getLast? = some d ∧ d.lease = lease) ∧
        ∀ d v now, .settled d v now ∈ ms → d.lease ≠ lease := by
  constructor
  · intro held
    refine ⟨?_, fun d v now mem => life.ne_of_settled nodup held mem⟩
    obtain ⟨t, hl⟩ := life.getLast?_of_lease held
    obtain ⟨ms, rfl⟩ := List.getLast?_eq_some_iff.mp hl
    refine ⟨r.delivery lease, ?_, rfl⟩
    rw [List.filterMap_append]
    exact List.getLast?_concat
  · rintro ⟨⟨d, last, rfl⟩, unsettled⟩
    cases life with
    | fresh => cases last
    | leased life lease' ready =>
      rw [List.filterMap_append] at last
      cases List.getLast?_concat.symm.trans last
      rfl
    | @settled ms r life d' v now held =>
      obtain ⟨t, hl⟩ := life.getLast?_of_lease held
      obtain ⟨ms, rfl⟩ := List.getLast?_eq_some_iff.mp hl
      have last' : (ms.filterMap Moment.leased? ++ [r.delivery d'.lease]).getLast? = some d := by
        rw [List.filterMap_append, List.filterMap_append, List.append_assoc] at last
        exact last
      cases List.getLast?_concat.symm.trans last'
      exact absurd rfl (unsettled d' v now (List.mem_append_right _ List.mem_cons_self))

end Life

/-! ## Deliveries and verdicts of a history -/

namespace History

variable {h : History}

/-- Whether this is the last delivery of its message so far. -/
def IsLatest (h : History) (d : Delivery) : Prop := (deliveriesOf h d.job).getLast? = some d

/-- Whether a verdict on a delivery was accepted. -/
def IsSettled (h : History) (d : Delivery) : Prop := ∃ v, (d, v) ∈ verdicts h

/-- Whether a message is in the hands of one client at a time. -/
structure Exclusive (h : History) : Prop where
  /-- The deliveries of a message are counted from 1. -/
  attempts : ∀ id, (deliveriesOf h id).map (fun d => d.attempt.toNat) =
    List.range' 1 (deliveriesOf h id).length
  /-- No two deliveries have the same lease. -/
  leases_nodup : (leases h).Nodup
  /-- Between a delivery and the next one of its message there is one verdict on the
  message, which is on this delivery and lets the message wait. -/
  retried_between : ∀ h₁ e₁ h₂ e₂ h₃ d₁ d₂, h = h₁ ++ e₁ :: h₂ ++ e₂ :: h₃ →
    e₁.delivery? = some d₁ → e₂.delivery? = some d₂ → d₁.job = d₂.job →
      deliveriesOf h₂ d₁.job = [] →
        ∃ retryAt error, verdictsOf h₂ d₁.job = [(d₁, .retry retryAt error)]
  /-- No delivery is settled twice. -/
  settled_once : ((verdicts h).map Prod.fst).Nodup

theorem mem_deliveriesOf {d : Delivery} : d ∈ deliveriesOf h d.job ↔ d ∈ deliveries h := by
  simp [deliveriesOf]

/-- Two deliveries with the same lease are the same. -/
theorem eq_of_lease_eq (nodup : (leases h).Nodup) {d d' : Delivery} (hd : d ∈ deliveries h)
    (hd' : d' ∈ deliveries h) (lease : d.lease = d'.lease) : d = d' :=
  List.inj_on_of_nodup_map nodup hd hd' lease

/-- Where clients settle only what they got, every verdict is on a delivery. -/
theorem Always.mem_deliveries (genuine : Always Request.IsGenuine h) {d : Delivery} {v : Verdict}
    (mem : (d, v) ∈ verdicts h) : d ∈ deliveries h := by
  obtain ⟨⟨q, r, ev⟩, he, hv⟩ := List.mem_filterMap.mp mem
  obtain ⟨before, after, rfl⟩ := List.append_of_mem he
  have hq := genuine before _ after rfl
  cases q <;> cases r <;> cases hv
  exact mem_deliveries_append hq _

/-- A verdict is one of the moments of its message. -/
theorem mem_verdicts_iff {d : Delivery} {v : Verdict} :
    (d, v) ∈ verdicts h ↔ ∃ now, .settled d v now ∈ momentsOf h d.job := by
  have mem : (d, v) ∈ verdicts h ↔ (d, v) ∈ verdictsOf h d.job := by simp [verdictsOf]
  rw [mem, verdictsOf_eq, List.mem_filterMap]
  constructor
  · rintro ⟨x, hx, eq⟩
    cases x with
    | leased => cases eq
    | settled d' v' now =>
      cases eq
      exact ⟨now, hx⟩
  · rintro ⟨now, hx⟩
    exact ⟨_, hx, rfl⟩

end History

/-- Which verdicts a store accepts after a history, and how it refuses the others. -/
structure Store.Settles (s : Store) (h : History) : Prop where
  /-- An open store accepts a verdict on the last delivery of a message while there
  was none, and accepts nothing else. -/
  settled_iff : ∀ d ∈ deliveries h, ∀ v now,
    (s.perform (.settle d v now)).answer = .settled ↔
      s.isOpen ∧ IsLatest h d ∧ ¬ IsSettled h d
  /-- A closed store accepts no verdict. -/
  unavailable : ∀ d ∈ deliveries h, ∀ v now, ¬ s.isOpen →
    (s.perform (.settle d v now)).answer = .refused .unavailable
  /-- An open store does not know messages that are forgotten. -/
  jobNotFound : ∀ d ∈ deliveries h, ∀ v now, s.isOpen → Forgot h d.job →
    (s.perform (.settle d v now)).answer = .refused (.jobNotFound d.job.text)
  /-- Everything else it refuses for its lease. -/
  invalidLease : ∀ d ∈ deliveries h, ∀ v now, s.isOpen → ¬ Forgot h d.job →
    ¬ (IsLatest h d ∧ ¬ IsSettled h d) →
      (s.perform (.settle d v now)).answer = .refused .invalidLease

namespace Run

variable {h : History} {s : Store}

/-- The leases of a message are given once. -/
theorem leases_of_momentsOf_nodup (run : Run h s) (id : JobId) :
    (((momentsOf h id).filterMap Moment.leased?).map Delivery.lease).Nodup := by
  rw [← deliveriesOf_eq]
  exact run.leases_nodup.sublist (List.filter_sublist.map _)

/-- Only messages that were taken are handed out. -/
theorem job_mem_ids (run : Run h s) {d : Delivery} (hd : d ∈ deliveries h) : d.job ∈ ids h := by
  by_contra unknown
  have mem := mem_deliveriesOf.mpr hd
  rw [deliveriesOf_eq, run.momentsOf_eq_nil unknown] at mem
  cases mem

theorem isChain_momentsOf (run : Run h s) (id : JobId) :
    (momentsOf h id).IsChain Moment.Follows := by
  by_cases taken : id ∈ ids h
  · obtain ⟨⟨id, m, born⟩, mem, rfl⟩ := List.mem_map.mp taken
    obtain ⟨r, life, -⟩ := run.life mem
    exact life.isChain
  · rw [run.momentsOf_eq_nil taken]
    exact .nil

/-- A message is under the lease of a delivery exactly if the delivery is its last and
nobody has settled it. -/
theorem lease_eq_iff (run : Run h s) (genuine : Always Request.IsGenuine h) {d : Delivery}
    (hd : d ∈ deliveries h) {m : Message} {born : Instant} {r : Record}
    (life : Life d.job m born (momentsOf h d.job) r) :
    r.lease = some d.lease ↔ IsLatest h d ∧ ¬ IsSettled h d := by
  have same : ∀ {d'}, d' ∈ deliveries h → d'.lease = d.lease → d' = d := fun hd' eq =>
    eq_of_lease_eq run.leases_nodup hd' hd eq
  rw [life.lease_eq_iff (run.leases_of_momentsOf_nodup d.job), ← deliveriesOf_eq]
  refine and_congr ?_ ?_
  · constructor
    · rintro ⟨d', last, eq⟩
      have mem := List.mem_of_mem_filter (List.mem_of_getLast? last)
      rw [same mem eq] at last
      exact last
    · exact fun last => ⟨d, last, rfl⟩
  · constructor
    · rintro unsettled ⟨v, mem⟩
      obtain ⟨now, hx⟩ := mem_verdicts_iff.mp mem
      exact unsettled d v now hx rfl
    · intro unsettled d' v now hx eq
      have job : d'.job = d.job := of_decide_eq_true (List.mem_filter.mp hx).2
      have mem := mem_verdicts_iff.mpr ⟨now, job ▸ hx⟩
      exact unsettled ⟨v, same (genuine.mem_deliveries mem) eq ▸ mem⟩

/-- Deliveries are counted from 1. -/
theorem attempts (run : Run h s) (few : Countable h) (id : JobId) :
    (deliveriesOf h id).map (fun d => d.attempt.toNat) =
      List.range' 1 (deliveriesOf h id).length := by
  have few := few id
  rw [deliveriesOf_eq] at few ⊢
  by_cases taken : id ∈ ids h
  · obtain ⟨⟨id, m, born⟩, mem, rfl⟩ := List.mem_map.mp taken
    obtain ⟨r, life, -⟩ := run.life mem
    exact (life.attempts few).1
  · rw [run.momentsOf_eq_nil taken]
    rfl

/-- Between a delivery and the next one is one verdict, which is on the former. -/
theorem retried_between (run : Run h s) (genuine : Always Request.IsGenuine h)
    {h₁ h₂ h₃ : History} {e₁ e₂ : Exchange} {d₁ d₂ : Delivery}
    (eq : h = h₁ ++ e₁ :: h₂ ++ e₂ :: h₃) (first : e₁.delivery? = some d₁)
    (second : e₂.delivery? = some d₂) (job : d₁.job = d₂.job)
    (none : deliveriesOf h₂ d₁.job = []) :
    ∃ retryAt error, verdictsOf h₂ d₁.job = [(d₁, .retry retryAt error)] := by
  have moment : ∀ {e : Exchange} {d}, e.delivery? = some d → d.job = d₁.job →
      ∃ now, momentsOf [e] d₁.job = [.leased d now] := by
    intro e d he hd
    rw [delivery?_eq, Option.bind_eq_some_iff] at he
    obtain ⟨x, hx, hd'⟩ := he
    cases x with
    | leased d' now =>
      cases hd'
      exact ⟨now, by simp [momentsOf, hx, Moment.delivery, hd]⟩
    | settled => cases hd'
  obtain ⟨t₁, m₁⟩ := moment first rfl
  obtain ⟨t₂, m₂⟩ := moment second job.symm
  have eq' : h = h₁ ++ ([e₁] ++ h₂ ++ [e₂]) ++ h₃ := by simp [eq]
  have chain : (momentsOf ([e₁] ++ h₂ ++ [e₂]) d₁.job).IsChain Moment.Follows := by
    have all := run.isChain_momentsOf d₁.job
    rw [eq', momentsOf_append, momentsOf_append] at all
    exact all.left_of_append.right_of_append
  rw [momentsOf_append, momentsOf_append, m₁, m₂, List.singleton_append] at chain
  rw [deliveriesOf_eq] at none
  obtain ⟨d, retryAt, error, now, between, lease⟩ := Moment.eq_settled_of_isChain chain none
  refine ⟨retryAt, error, ?_⟩
  have verdict : verdictsOf h₂ d₁.job = [(d, .retry retryAt error)] := by
    rw [verdictsOf_eq, between]
    rfl
  -- The verdict is under the lease of the first delivery, and that lease is given once.
  have given : d ∈ deliveries h := by
    refine genuine.mem_deliveries (v := .retry retryAt error) ?_
    have mem : (d, .retry retryAt error) ∈ verdictsOf h₂ d₁.job := by simp [verdict]
    rw [eq', verdicts_append, verdicts_append, verdicts_append, verdicts_append]
    simp only [List.mem_append]
    exact .inl (.inr (.inl (.inr (List.mem_of_mem_filter mem))))
  have same : d = d₁ := by
    refine eq_of_lease_eq run.leases_nodup given ?_ lease
    exact List.mem_filterMap.mpr ⟨e₁, by simp [eq], first⟩
  rw [verdict, same]

/-- No delivery is settled twice. -/
theorem settled_once (run : Run h s) (genuine : Always Request.IsGenuine h) :
    ((verdicts h).map Prod.fst).Nodup := by
  induction run with
  | start => exact .nil
  | @call h s run q fresh ih =>
    obtain ⟨before, last⟩ := always_concat.mp genuine
    rw [verdicts_concat, List.map_append]
    have alone : ∀ x, (s.exchange q).verdict? = some x → ¬ IsSettled h x.1 := by
      intro x hx
      unfold Store.exchange at hx
      have effect := s.perform_effect q
      generalize s.perform q = step at effect hx
      cases effect with
      | settled isOpen v now found held =>
        cases hx
        obtain ⟨m, born, -, life⟩ := run.life_of_record? found
        exact ((run.lease_eq_iff before last life).mp held).2
      | refused => cases q <;> cases hx
      | enqueued => cases hx
      | nothing => cases hx
      | leased => cases hx
      | pruned => cases hx
      | closed => cases hx
    cases hx : (s.exchange q).verdict? with
    | none => simpa using ih before
    | some x =>
      refine List.nodup_append.mpr ⟨ih before, by simp, ?_⟩
      rintro a ha b hb rfl
      obtain ⟨y, hy, rfl⟩ := List.mem_map.mp ha
      rw [Option.toList_some, List.map_singleton, List.mem_singleton] at hb
      exact alone x hx ⟨y.2, hb ▸ hy⟩

theorem exclusive (run : Run h s) (genuine : Always Request.IsGenuine h) (few : Countable h) :
    h.Exclusive where
  attempts := run.attempts few
  leases_nodup := run.leases_nodup
  retried_between _ _ _ _ _ _ _ eq first second job none :=
    run.retried_between genuine eq first second job none
  settled_once := run.settled_once genuine

/-- A message whose last delivery nobody has settled is not forgotten. -/
theorem exists_of_isLatest (run : Run h s) (genuine : Always Request.IsGenuine h) {d : Delivery}
    (hd : d ∈ deliveries h) (latest : IsLatest h d) (unsettled : ¬ IsSettled h d) :
    ∃ r, s.record? d.job = some r ∧ r.lease = some d.lease := by
  obtain ⟨⟨id, m, born⟩, mem, eq⟩ := List.mem_map.mp (run.job_mem_ids hd)
  cases eq
  obtain ⟨r, life, knows⟩ := run.life mem
  have held := (run.lease_eq_iff genuine hd life).mpr ⟨latest, unsettled⟩
  rcases knows with found | ⟨-, ended⟩
  · exact ⟨r, found, held⟩
  · rw [life.lease_isSome_iff.mp (by rw [held]; rfl)] at ended
    cases ended

theorem settles (run : Run h s) (genuine : Always Request.IsGenuine h) : s.Settles h := by
  have gone : ∀ d ∈ deliveries h, s.record? d.job = none ↔ Forgot h d.job := fun d hd =>
    run.record?_eq_none_iff (run.job_mem_ids hd)
  have stale : ∀ {d}, d ∈ deliveries h → ∀ {r}, s.record? d.job = some r →
      (r.lease = some d.lease ↔ IsLatest h d ∧ ¬ IsSettled h d) := by
    intro d hd r found
    obtain ⟨m, born, -, life⟩ := run.life_of_record? found
    exact run.lease_eq_iff genuine hd life
  constructor
  · intro d hd v now
    constructor
    · intro settled
      have effect := s.perform_effect (.settle d v now)
      generalize s.perform (.settle d v now) = step at effect settled
      cases effect with
      | refused => cases settled
      | settled isOpen v now found held => exact ⟨isOpen, (stale hd found).mp held⟩
    · rintro ⟨isOpen, latest, unsettled⟩
      obtain ⟨r, found, held⟩ := run.exists_of_isLatest genuine hd latest unsettled
      rw [Store.perform_settle, Store.settle_of_held isOpen v now found held]
      rfl
  · intro d hd v now closed
    rw [Store.perform_settle, Store.settle, Store.whenOpen, if_neg closed]
    rfl
  · intro d hd v now isOpen forgot
    rw [Store.perform_settle, Store.settle_of_missing isOpen v now ((gone d hd).mpr forgot)]
    rfl
  · intro d hd v now isOpen known other
    cases hr : s.record? d.job with
    | none => exact absurd ((gone d hd).mp hr) known
    | some r =>
      have lost : r.lease ≠ some d.lease := fun held => other ((stale hd hr).mp held)
      rw [Store.perform_settle, Store.settle_of_stale isOpen v now hr lost]
      rfl

/-- However clients call a store with deliveries that they got: a message is in the
hands of one of them at a time, the store accepts a verdict exactly on a delivery
that is still in somebody's hands, and a call that fails changes nothing and tells
nothing. -/
theorem exclusive_and_settles (run : Run h s) (genuine : Always Request.IsGenuine h)
    (few : Countable h) :
    h.Exclusive ∧ s.Settles h ∧
      ∀ q e, (s.perform q).answer = .refused e →
        (s.perform q).store = s ∧ (s.perform q).event = none :=
  ⟨run.exclusive genuine few, run.settles genuine, fun _ _ => Store.perform_of_refused⟩

theorem exclusive_and_settles_of_example :
    ∃ h s, replay exampleRequests = some (h, s) ∧ h.Exclusive ∧ s.Settles h := by
  obtain ⟨⟨h, s⟩, eq⟩ : ∃ p, replay exampleRequests = some p := ⟨_, rfl⟩
  have genuine : Always Request.IsGenuine h ∧ h.length < UInt32.size := by
    cases eq
    decide
  obtain ⟨exclusive, settles, -⟩ :=
    Run.exclusive_and_settles (.of_replay eq) genuine.1 (.of_length genuine.2)
  exact ⟨h, s, eq, exclusive, settles⟩

end Run

end JobQueue
