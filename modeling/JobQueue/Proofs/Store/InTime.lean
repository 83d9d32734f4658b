import JobQueue.Proofs.Store.Leases
import JobQueue.Proofs.Store.OneWay

/-!
# Deliveries in time

A message says when it may be delivered, and a verdict may put it off.  The store
looks at the clock once for a new message and keeps what it saw as a status, so it
hands messages out in time only under a clock that never goes back
(`History.Forward`).

A life then does the rest.  A message that is handed out for the first time was due
when it was taken, or is due now (`Life.processAt_le`), and one that was put off stays
put off until its next delivery (`Life.retryAt_le`).  `Run.inTime` has both of the
deliveries in a history, and `Run.retryAt_le` has the second of all deliveries that
follow a verdict, not only of the next one.
-/

namespace JobQueue

namespace Instant

theorem le_trans {a b c : Instant} (first : a ≤ b) (second : b ≤ c) : a ≤ c :=
  Int.le_trans first second

end Instant

/-- What the clock says at a call. -/
def Request.now? : Request → Option Instant
  | enqueue _ _ now | dequeue _ _ now | settle _ _ now => some now
  | prune _ | close => none

/-- What the clock says at a moment. -/
def Moment.time : Moment → Instant
  | leased _ now | settled _ _ now => now

namespace History

/-- What the clock said at the calls of a history. -/
def clock (h : History) : List Instant := h.filterMap fun e => e.request.now?

/-- Whether the clock never went back. -/
def Forward (h : History) : Prop := (clock h).Pairwise (· ≤ ·)

instance (h : History) : Decidable (Forward h) :=
  inferInstanceAs (Decidable ((clock h).Pairwise (· ≤ ·)))

/-- Whether a delivery at a time, after what was before, is neither too early for its
message nor, from the second attempt on, for the verdict on the attempt before. -/
structure InTime (before : History) (d : Delivery) (t : Instant) : Prop where
  /-- The message may be delivered. -/
  due : d.message.processAt ≤ t
  /-- Since the attempt before, a single verdict on the message was accepted.  It was
  under the lease of that attempt and put the message off until then or earlier. -/
  backedOff : 1 < d.attempt.toNat → ∃ earlier e between d' v retryAt error,
    before = earlier ++ e :: between ∧ e.delivery? = some d' ∧ d'.job = d.job ∧
      d'.attempt.toNat + 1 = d.attempt.toNat ∧ deliveriesOf between d.job = [] ∧
        verdictsOf between d.job = [(v, .retry retryAt error)] ∧ v.lease = d'.lease ∧
          retryAt ≤ t

variable {h : History}

theorem clock_append (h₁ h₂ : History) : clock (h₁ ++ h₂) = clock h₁ ++ clock h₂ :=
  List.filterMap_append

theorem clock_concat (h : History) (e : Exchange) :
    clock (h ++ [e]) = clock h ++ e.request.now?.toList := by
  cases now : e.request.now? <;> simp [clock, now]

theorem Forward.left {h₁ h₂ : History} (forward : Forward (h₁ ++ h₂)) : Forward h₁ := by
  unfold Forward at forward
  rw [clock_append] at forward
  exact (List.pairwise_append.mp forward).1

/-- The clock does not say less at a later call. -/
theorem Forward.le {e : Exchange} {t : Instant} (forward : Forward (h ++ [e]))
    (now : e.request.now? = some t) : ∀ u ∈ clock h, u ≤ t := by
  unfold Forward at forward
  rw [clock_concat, now] at forward
  intro u mem
  exact (List.pairwise_append.mp forward).2.2 u mem t List.mem_cons_self

/-- A moment is when its call is. -/
theorem now?_of_moment? {e : Exchange} {x : Moment} (h : e.moment? = some x) :
    e.request.now? = some x.time := by
  unfold Exchange.moment? at h
  split at h <;> cases h <;> rfl

theorem time_mem_clock {id : JobId} {x : Moment} (mem : x ∈ momentsOf h id) :
    x.time ∈ clock h := by
  obtain ⟨e, he, hx⟩ := List.mem_filterMap.mp (List.mem_of_mem_filter mem)
  exact List.mem_filterMap.mpr ⟨e, he, now?_of_moment? hx⟩

theorem born_mem_clock {id : JobId} {m : Message} {born : Instant}
    (taken : (id, m, born) ∈ enqueued h) : born ∈ clock h := by
  obtain ⟨⟨q, r, ev⟩, he, hx⟩ := List.mem_filterMap.mp taken
  refine List.mem_filterMap.mpr ⟨_, he, ?_⟩
  cases q <;> cases r <;> cases hx
  rfl

/-- A moment of a message has its call in the history, with the other moments before
and after it. -/
theorem exists_of_momentsOf_eq {id : JobId} {ms rest : List Moment} {x : Moment}
    (eq : momentsOf h id = ms ++ x :: rest) :
    ∃ h₁ e h₂, h = h₁ ++ e :: h₂ ∧ e.moment? = some x ∧ momentsOf h₁ id = ms ∧
      momentsOf h₂ id = rest := by
  obtain ⟨xs, ys, eq, left, right⟩ := List.filter_eq_append_iff.mp eq
  obtain ⟨skipped, ys, rfl, none, -, right⟩ := List.filter_eq_cons_iff.mp right
  obtain ⟨h₁, h', rfl, left', right'⟩ := List.filterMap_eq_append_iff.mp eq
  obtain ⟨h₂, h₃, rfl, left'', right''⟩ := List.filterMap_eq_append_iff.mp right'
  obtain ⟨h₄, e, h₅, rfl, quiet, moment, right'''⟩ := List.filterMap_eq_cons_iff.mp right''
  refine ⟨h₁ ++ h₂ ++ h₄, e, h₅, by simp, moment, ?_, ?_⟩
  · have empty : momentsOf h₄ id = [] := by
      rw [momentsOf, List.filterMap_eq_nil_iff.mpr quiet]
      rfl
    have before : momentsOf h₂ id = [] := by
      rw [momentsOf, left'']
      exact List.filter_eq_nil_iff.mpr none
    rw [momentsOf_append, momentsOf_append, empty, before, momentsOf, left']
    simpa using left
  · rw [momentsOf, right''']
    exact right

end History

open History

/-! ## Lives under a clock -/

namespace Life

variable {id : JobId} {m : Message} {born : Instant} {ms rest : List Moment} {r : Record}
  {d : Delivery} {t : Instant}

/-- The beginning of a life is a life. -/
theorem exists_of_append (life : Life id m born (ms ++ rest) r) :
    ∃ r', Life id m born ms r' := by
  generalize eq : ms ++ rest = all at life
  induction life generalizing rest with
  | fresh =>
    obtain ⟨rfl, -⟩ := List.append_eq_nil_iff.mp eq
    exact ⟨_, .fresh⟩
  | leased life lease ready ih =>
    rcases List.eq_nil_or_concat rest with rfl | ⟨rest, x, rfl⟩
    · rw [List.append_nil] at eq
      exact ⟨_, eq ▸ life.leased lease ready⟩
    · rw [List.concat_eq_append, ← List.append_assoc] at eq
      exact ih (List.append_inj' eq rfl).1
  | settled life v now held ih =>
    rcases List.eq_nil_or_concat rest with rfl | ⟨rest, x, rfl⟩
    · rw [List.append_nil] at eq
      exact ⟨_, eq ▸ life.settled v now held⟩
    · rw [List.concat_eq_append, ← List.append_assoc] at eq
      exact ih (List.append_inj' eq rfl).1

/-- At a delivery the record says that the message may be delivered. -/
theorem exists_of_leased (life : Life id m born (ms ++ [.leased d t]) r) :
    ∃ r', Life id m born ms r' ∧ r'.isDeliverable t ∧
      d = (r'.start d.lease t).delivery d.lease := by
  generalize eq : ms ++ [Moment.leased d t] = all at life
  cases life with
  | fresh => simp at eq
  | leased life lease ready =>
    obtain ⟨rfl, last⟩ := List.append_inj' eq rfl
    cases last
    exact ⟨_, life, ready, rfl⟩
  | settled life v now held => cases (List.append_inj' eq rfl).2

/-- After a verdict that puts a message off, its record says until when. -/
theorem status_of_retry {d' : Delivery} {retryAt u : Instant} {error : String}
    (life : Life id m born (ms ++ [.settled d' (.retry retryAt error) u]) r) :
    r.status = .retrying retryAt := by
  generalize eq : ms ++ [Moment.settled d' (.retry retryAt error) u] = all at life
  cases life with
  | fresh => simp at eq
  | leased life lease ready => cases (List.append_inj' eq rfl).2
  | settled life v now held =>
    cases (List.append_inj' eq rfl).2
    rfl

/-- A message that was handed out and waits was put off in its last two moments. -/
theorem exists_of_isWaiting (life : Life id m born ms r) (waits : r.status.isWaiting)
    (handed : ms ≠ []) : ∃ ms' t' v retryAt error u,
      ms = ms' ++ .leased (r.delivery v.lease) t' :: [.settled v (.retry retryAt error) u] ∧
        r.status = .retrying retryAt := by
  cases life with
  | fresh => exact absurd rfl handed
  | leased => cases waits
  | @settled ms r life v verdict u held =>
    obtain ⟨t', last⟩ := life.getLast?_of_lease held
    obtain ⟨ms', rfl⟩ := List.getLast?_eq_some_iff.mp last
    cases verdict with
    | ack => cases waits
    | retry retryAt error =>
      refine ⟨ms', t', v, retryAt, error, u, ?_, rfl⟩
      rw [List.append_assoc]
      rfl
    | archive error => cases waits

/-- What is handed out is the message. -/
theorem message_of_leased (life : Life id m born ms r) (mem : d ∈ ms.filterMap Moment.leased?) :
    d.message = m := by
  induction life with
  | fresh => cases mem
  | leased life lease ready ih =>
    rw [List.filterMap_append] at mem
    rcases List.mem_append.mp mem with before | last
    · exact ih before
    · rw [List.mem_singleton.mp last]
      exact life.message_eq.1
  | settled life v now held ih => exact ih (by simpa [Moment.leased?] using mem)

/-- No delivery of a message is too early for it. -/
theorem processAt_le (life : Life id m born ms r)
    (ordered : (born :: ms.map Moment.time).Pairwise (· ≤ ·)) (mem : .leased d t ∈ ms) :
    m.processAt ≤ t := by
  induction life generalizing d t with
  | fresh => cases mem
  | @leased ms r life lease now ready ih =>
    rw [List.map_append, ← List.cons_append] at ordered
    obtain ⟨before, -, last⟩ := List.pairwise_append.mp ordered
    rcases List.mem_append.mp mem with earlier | here
    · exact ih before earlier
    rw [List.mem_singleton] at here
    cases here
    have until_now : ∀ u ∈ born :: ms.map Moment.time, u ≤ now := fun u mem =>
      last u mem now List.mem_cons_self
    rcases Record.isDeliverable_iff.mp ready with pending | ⟨-, due⟩ | ⟨due, retrying, -⟩
    · -- what the clock said when the message was taken is all that the record knows
      obtain rfl := life.eq_nil_iff.mpr (.inl pending)
      generalize eq : ([] : List Moment) = none at life
      cases life with
      | fresh =>
        simp only [Record.ofMessage, Message.isDue, decide_eq_true_eq] at pending
        have due : m.processAt ≤ born := by
          by_contra early
          rw [if_neg early] at pending
          cases pending
        exact Instant.le_trans due (until_now born List.mem_cons_self)
      | leased => simp at eq
      | settled => simp at eq
    · rwa [life.message_eq.1] at due
    · have handed : ms.filterMap Moment.leased? ≠ [] := by
        intro none
        rw [life.eq_nil_iff.mp (life.eq_nil_of_leased_eq_nil none) |>.resolve_left
          (by simp [retrying])] at retrying
        cases retrying
      obtain ⟨d', mem'⟩ := List.exists_mem_of_ne_nil _ handed
      obtain ⟨x, mem', eq⟩ := List.mem_filterMap.mp mem'
      cases x with
      | settled => cases eq
      | leased d' t' =>
        refine Instant.le_trans (ih before mem') (until_now t' ?_)
        exact List.mem_cons_of_mem _ (List.mem_map_of_mem mem')
  | settled life v now held ih =>
    rw [List.map_append, ← List.cons_append] at ordered
    exact ih (List.pairwise_append.mp ordered).1 (by simpa using mem)

/-- A message that was put off is not delivered before then. -/
theorem retryAt_le {d' : Delivery} {retryAt u : Instant} {error : String} {mid : List Moment}
    (life : Life id m born
      (ms ++ .settled d' (.retry retryAt error) u :: (mid ++ [.leased d t])) r)
    (ordered : ((mid ++ [Moment.leased d t]).map Moment.time).Pairwise (· ≤ ·)) :
    retryAt ≤ t := by
  have next : ∀ {d : Delivery} {t : Instant} {rest : List Moment} {r : Record}, Life id m born
      (ms ++ .settled d' (.retry retryAt error) u :: .leased d t :: rest) r → retryAt ≤ t := by
    intro d t rest r life
    have split : ms ++ Moment.settled d' (.retry retryAt error) u :: .leased d t :: rest =
        ((ms ++ [.settled d' (.retry retryAt error) u]) ++ [Moment.leased d t]) ++ rest := by simp
    rw [split] at life
    obtain ⟨r', life⟩ := life.exists_of_append
    obtain ⟨r', life, ready, -⟩ := life.exists_of_leased
    have status := life.status_of_retry
    simpa [Record.isDeliverable, status] using ready
  cases mid with
  | nil => exact next life
  | cons x rest =>
    -- the first delivery after the verdict is in time, and the others come later
    have chain := life.isChain
    rw [List.isChain_append, List.cons_append, List.isChain_cons_cons] at chain
    cases x with
    | settled => exact chain.2.1.1.elim
    | leased d₁ t₁ =>
      rw [List.map_append] at ordered
      exact Instant.le_trans (next life)
        ((List.pairwise_append.mp ordered).2.2 t₁ List.mem_cons_self t List.mem_cons_self)

end Life

/-! ## Deliveries of a history -/

namespace Run

variable {h : History} {s : Store}

/-- The beginning of a history is a history. -/
theorem exists_of_append {h₁ h₂ : History} (run : Run (h₁ ++ h₂) s) : ∃ s', Run h₁ s' := by
  generalize eq : h₁ ++ h₂ = all at run
  induction run generalizing h₂ with
  | start =>
    obtain ⟨rfl, -⟩ := List.append_eq_nil_iff.mp eq
    exact ⟨_, .start⟩
  | call run q fresh ih =>
    rcases List.eq_nil_or_concat h₂ with rfl | ⟨h₂, e, rfl⟩
    · rw [List.append_nil] at eq
      exact ⟨_, eq ▸ run.call q fresh⟩
    · rw [List.concat_eq_append, ← List.append_assoc] at eq
      exact ih (List.append_inj' eq rfl).1

/-- The moments of a message come after it was taken and in the order of the clock. -/
theorem ordered (run : Run h s) (forward : Forward h) {id : JobId} {m : Message} {born : Instant}
    (taken : (id, m, born) ∈ enqueued h) :
    (born :: (momentsOf h id).map Moment.time).Pairwise (· ≤ ·) := by
  induction run with
  | start => cases taken
  | @call h s run q fresh ih =>
    rw [enqueued_concat, List.mem_append] at taken
    rw [momentsOf_concat, List.map_append, ← List.cons_append]
    rcases taken with before | now
    · refine List.pairwise_append.mpr ⟨ih forward.left before, ?_, ?_⟩
      · cases (s.exchange q).moment?.filter _ <;> simp
      · intro u mem t mem'
        obtain ⟨x, hx, rfl⟩ := List.mem_map.mp mem'
        obtain ⟨moment, -⟩ := Option.filter_eq_some_iff.mp (Option.mem_toList.mp hx)
        refine forward.le (now?_of_moment? moment) u ?_
        rcases List.mem_cons.mp mem with rfl | mem
        · exact born_mem_clock before
        · obtain ⟨x, hx, rfl⟩ := List.mem_map.mp mem
          exact time_mem_clock hx
    · cases Store.enqueued?_exchange (Option.mem_toList.mp now)
      rw [run.momentsOf_eq_nil fresh]
      exact List.pairwise_singleton _ _

/-- A delivery is the last moment of its message so far. -/
theorem momentsOf_of_delivery? (before : History) {e : Exchange} {d : Delivery} {t : Instant}
    (given : e.delivery? = some d) (now : e.request.now? = some t) :
    momentsOf (before ++ [e]) d.job = momentsOf before d.job ++ [.leased d t] := by
  rw [delivery?_eq, Option.bind_eq_some_iff] at given
  obtain ⟨x, moment, eq⟩ := given
  cases x with
  | settled => cases eq
  | leased d' t' =>
    cases eq
    rw [now?_of_moment? moment] at now
    cases now
    have job : (Moment.leased d t').delivery.job = d.job := rfl
    rw [momentsOf_concat, moment, Option.filter_some, if_pos (decide_eq_true job)]
    rfl

/-- A verdict is a moment of its message. -/
theorem exists_moment?_of_verdict? {e : Exchange} {v : Delivery} {verdict : Verdict}
    (given : e.verdict? = some (v, verdict)) : ∃ u, e.moment? = some (.settled v verdict u) := by
  rw [verdict?_eq, Option.bind_eq_some_iff] at given
  obtain ⟨x, moment, eq⟩ := given
  cases x with
  | leased => cases eq
  | settled v' verdict' u =>
    cases eq
    exact ⟨u, moment⟩

/-- What is handed out has a life until then. -/
theorem exists_life_of_delivery? {before after : History} {e : Exchange} {d : Delivery}
    (run : Run (before ++ e :: after) s) (forward : Forward (before ++ e :: after))
    (given : e.delivery? = some d) : ∃ m born r,
      Life d.job m born (momentsOf (before ++ [e]) d.job) r ∧
        (born :: (momentsOf (before ++ [e]) d.job).map Moment.time).Pairwise (· ≤ ·) := by
  rw [← List.singleton_append, ← List.append_assoc] at run forward
  obtain ⟨s', run⟩ := run.exists_of_append
  have known : d ∈ deliveries (before ++ [e]) := mem_deliveries_concat.mpr (.inr given)
  obtain ⟨⟨id, m, born⟩, taken, eq⟩ := List.mem_map.mp (run.job_mem_ids known)
  obtain rfl : id = d.job := eq
  obtain ⟨r, life, -⟩ := run.life taken
  exact ⟨m, born, r, life, run.ordered forward.left taken⟩

/-- What is handed out of a message is what was taken. -/
theorem message_eq (run : Run h s) {id : JobId} {m : Message} {born : Instant} {d : Delivery}
    (taken : (id, m, born) ∈ enqueued h) (mem : d ∈ deliveriesOf h id) : d.message = m := by
  obtain ⟨r, life, -⟩ := run.life taken
  rw [deliveriesOf_eq] at mem
  exact life.message_of_leased mem

/-- Under a clock that never goes back every delivery is in time. -/
theorem inTime {before after : History} {e : Exchange} {d : Delivery} {t : Instant}
    (run : Run (before ++ e :: after) s) (forward : Forward (before ++ e :: after))
    (given : e.delivery? = some d) (now : e.request.now? = some t) : InTime before d t := by
  obtain ⟨m, born, r', life, ordered⟩ := run.exists_life_of_delivery? forward given
  have moments := momentsOf_of_delivery? before given now
  have due := life.processAt_le ordered (d := d) (t := t) (by simp [moments])
  rw [moments] at life
  obtain ⟨r, life, ready, same⟩ := life.exists_of_leased
  constructor
  · rw [same]
    show r.message.processAt ≤ t
    rwa [life.message_eq.1]
  · intro later
    have count : d.attempt = r.attempt + 1 := by
      rw [same]
      rfl
    have handed : momentsOf before d.job ≠ [] := by
      intro none
      rw [none] at life
      rw [count, life.attempt_eq] at later
      exact absurd later (by decide)
    obtain ⟨ms, t', v, retryAt, error, u, moments, status⟩ :=
      life.exists_of_isWaiting (Record.isWaiting_of_isDeliverable ready) handed
    obtain ⟨earlier, e', between, rfl, moment, -, rest⟩ := exists_of_momentsOf_eq moments
    refine ⟨earlier, e', between, r.delivery v.lease, v, retryAt, error, rfl, ?_, life.id_eq, ?_,
      ?_, ?_, rfl, ?_⟩
    · rw [delivery?_eq, moment]
      rfl
    · show r.attempt.toNat + 1 = d.attempt.toNat
      rw [count, UInt32.toNat_add] at later ⊢
      have := r.attempt.toNat_lt
      simp only [UInt32.toNat_one] at later ⊢
      omega
    · rw [deliveriesOf_eq, rest]
      rfl
    · rw [verdictsOf_eq, rest]
      rfl
    · simpa [Record.isDeliverable, status] using ready

/-- Under a clock that never goes back no delivery that follows a verdict which puts its
message off is before then. -/
theorem retryAt_le {before between after : History} {e₁ e₂ : Exchange} {v d : Delivery}
    {retryAt t : Instant} {error : String}
    (run : Run (before ++ e₁ :: between ++ e₂ :: after) s)
    (forward : Forward (before ++ e₁ :: between ++ e₂ :: after))
    (verdict : e₁.verdict? = some (v, .retry retryAt error)) (given : e₂.delivery? = some d)
    (job : d.job = v.job) (now : e₂.request.now? = some t) : retryAt ≤ t := by
  obtain ⟨m, born, r, life, ordered⟩ := run.exists_life_of_delivery? forward given
  obtain ⟨u, moment⟩ := exists_moment?_of_verdict? verdict
  have here : (Moment.settled v (.retry retryAt error) u).delivery.job = d.job := job.symm
  have moments : momentsOf (before ++ e₁ :: between ++ [e₂]) d.job =
      momentsOf before d.job ++ .settled v (.retry retryAt error) u ::
        (momentsOf between d.job ++ [.leased d t]) := by
    rw [momentsOf_of_delivery? _ given now, ← List.singleton_append, ← List.append_assoc,
      momentsOf_append, momentsOf_concat, moment, Option.filter_some,
      if_pos (decide_eq_true here)]
    simp
  rw [moments] at life ordered
  rw [List.map_append, ← List.cons_append, List.map_cons] at ordered
  exact life.retryAt_le (List.pairwise_cons.mp (List.pairwise_append.mp ordered).2.1).2

end Run

end JobQueue
