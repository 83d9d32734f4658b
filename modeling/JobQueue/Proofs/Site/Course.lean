import JobQueue.Proofs.Site.Views

/-!
# The course of a message

A message that every pool of its queue can handle runs through its attempts: its
handler is invoked once for each delivery, and what it says decides what follows.
`Course` says how far a message is, by its record, the slot that holds it and the
invocations for it, where `N` is the number of attempts that it gets.

`Site.Follows.step` shows that every step of a site follows this course, whatever
the other messages do.  No bound on the deliveries is assumed: the attempts are
counted without overflow because another one is made only while there are fewer
than `N`.
-/

namespace JobQueue

open History

/-! ## Invocations and attempts -/

/-- Invocations with their places, in the order in which they began. -/
abbrev Calls := List (Place × Invocation)

/-- Whether these are invocations of a handler that failed, but may be repeated. -/
def IsTries (calls : Calls) : Prop :=
  ∀ c ∈ calls, c.2.stage = .handle ∧ ∃ reason, c.2.result? = some (.error (.retryable reason))

/-- Whether these are the invocations before attempt `n` of `N`. -/
structure Before (N n : Nat) (calls : Calls) : Prop where
  /-- All of them failed, but may be repeated. -/
  tries : IsTries calls
  /-- There was one for each earlier attempt. -/
  count : calls.length + 1 = n
  /-- The attempt is one of those that the message gets. -/
  le : n ≤ N

/-- Whether these are the invocations up to attempt `n` of `N`, which succeeded. -/
def Succeeds (N n : Nat) (calls : Calls) : Prop :=
  ∃ tries last, calls = tries ++ [last] ∧ Before N n tries ∧ last.2.stage = .handle ∧
    last.2.result? = some (.ok ())

/-- Whether these are the invocations up to attempt `n` of `N`, which failed for
good. -/
def Fails (N n : Nat) (e : JobError) (calls : Calls) : Prop :=
  ∃ tries last, calls = tries ++ [last] ∧ Before N n tries ∧ last.2.stage = .handle ∧
    last.2.result? = some (.error e) ∧ (e.isRetryable → n = N)

/-- Whether these are the invocations up to the one that tells the handler that
attempt `n` of `N` failed for good. -/
def GivenUp (N n : Nat) (reason : String) (calls : Calls) : Prop :=
  ∃ earlier hook e, calls = earlier ++ [hook] ∧ Fails N n e earlier ∧
    hook.2.stage = .failed e ∧ reason = e.reason

/-- How far attempt `n` of `N` is, by the phase of a slot of pool `i` and the
invocations for the message. -/
inductive Doing (N n i : Nat) : Phase → Calls → Prop where
  /-- The slot has not looked at the message. -/
  | holding {d : Delivery} {calls : Calls} (before : Before N n calls) :
    Doing N n i (.holding d) calls
  /-- It has counted the message. -/
  | counted {t : Task} {current : Nat} {calls : Calls} (before : Before N n calls) :
    Doing N n i (.counted t current) calls
  /-- It is about to invoke the handler. -/
  | calling {t : Task} {calls : Calls} (before : Before N n calls) : Doing N n i (.calling t) calls
  /-- The handler runs. -/
  | running {t : Task} {call : Nat} {tries : Calls} {job : Job} (before : Before N n tries) :
    Doing N n i (.running t call)
      (tries ++ [((i, call), { stage := .handle, context := t.context, job })])
  /-- The handler has failed for good. -/
  | hooking {t : Task} {e : JobError} {calls : Calls} (fails : Fails N n e calls) :
    Doing N n i (.hooking t e) calls
  /-- The handler learns it. -/
  | hooked {t : Task} {e : JobError} {call : Nat} {earlier : Calls} {job : Job}
    (fails : Fails N n e earlier) :
    Doing N n i (.hooked t e call)
      (earlier ++ [((i, call), { stage := .failed e, context := t.context, job })])
  /-- The message is to be done. -/
  | acking {d : Delivery} {outcome : Outcome} {isCounted : Bool} {calls : Calls}
    (succeeds : Succeeds N n calls) : Doing N n i (.settling d outcome .ack isCounted) calls
  /-- The message is to wait for another attempt. -/
  | retrying {d : Delivery} {outcome : Outcome} {retryAt : Instant} {error : String}
    {isCounted : Bool} {calls : Calls} (tries : IsTries calls) (count : calls.length = n)
    (left : n < N) : Doing N n i (.settling d outcome (.retry retryAt error) isCounted) calls
  /-- The message is to be given up. -/
  | archiving {d : Delivery} {outcome : Outcome} {reason : String} {isCounted : Bool}
    {calls : Calls} (givenUp : GivenUp N n reason calls) :
    Doing N n i (.settling d outcome (.archive reason) isCounted) calls

/-- How far a message with `N` attempts is, by its record, the slot that holds it and
the invocations for it. -/
inductive Course (N : Nat) (r : Record) : Option (Place × Phase) → Calls → Prop where
  /-- It waits. -/
  | waiting {calls : Calls} (waits : r.status.isWaiting) (tries : IsTries calls)
    (count : calls.length = r.attempt.toNat) (left : calls.length < N) : Course N r none calls
  /-- A slot works on it. -/
  | held {lease : LeaseToken} {place : Place} {f : Phase} {calls : Calls}
    (active : r.status = .active) (lease_eq : r.lease = some lease)
    (delivery : f.delivery? = some (r.delivery lease))
    (doing : Doing N r.attempt.toNat place.1 f calls) : Course N r (some (place, f)) calls
  /-- It is done. -/
  | completed {calls : Calls} {t : Instant} (status : r.status = .completed t)
    (succeeds : Succeeds N r.attempt.toNat calls) : Course N r none calls
  /-- It is given up. -/
  | archived {calls : Calls} {t : Instant} {reason : String}
    (status : r.status = .archived t reason) (givenUp : GivenUp N r.attempt.toNat reason calls) :
    Course N r none calls

theorem IsTries.concat {calls : Calls} (tries : IsTries calls) {c : Place × Invocation}
    (stage : c.2.stage = .handle)
    (result : ∃ reason, c.2.result? = some (.error (.retryable reason))) :
    IsTries (calls ++ [c]) := by
  intro c' mem
  rcases List.mem_append.mp mem with mem | mem
  · exact tries c' mem
  · rw [List.mem_singleton] at mem
    subst mem
    exact ⟨stage, result⟩

theorem JobError.eq_retryable {e : JobError} (h : e.isRetryable) :
    e = .retryable e.reason := by
  cases e with
  | retryable => rfl
  | permanent => cases h

/-- An attempt is the last one exactly if its number is that of all attempts. -/
theorem Delivery.isLast_iff {d : Delivery} (le : d.attempt.toNat ≤ d.maxAttempts.toNat) :
    d.isLast ↔ d.attempt.toNat = d.maxAttempts.toNat := by
  unfold isLast
  rw [decide_eq_true_eq, UInt32.le_iff_toNat_le]
  omega

/-! ## What the course of a message tells -/

/-- The invocations that do a job. -/
def handlingsIn (calls : Calls) : List Invocation :=
  (calls.map Prod.snd).filter fun c => c.stage = .handle

/-- The invocations that tell the handler that a job failed for good. -/
def hooksIn (calls : Calls) : List Invocation :=
  (calls.map Prod.snd).filter fun c => c.stage ≠ .handle

theorem handlingsIn_concat (calls : Calls) {c : Place × Invocation} (stage : c.2.stage = .handle) :
    handlingsIn (calls ++ [c]) = handlingsIn calls ++ [c.2] := by
  simp [handlingsIn, stage]

theorem handlingsIn_concat_hook (calls : Calls) {c : Place × Invocation} {e : JobError}
    (stage : c.2.stage = .failed e) : handlingsIn (calls ++ [c]) = handlingsIn calls := by
  simp [handlingsIn, stage]

theorem hooksIn_concat (calls : Calls) {c : Place × Invocation} (stage : c.2.stage = .handle) :
    hooksIn (calls ++ [c]) = hooksIn calls := by
  simp [hooksIn, stage]

theorem hooksIn_concat_hook (calls : Calls) {c : Place × Invocation} {e : JobError}
    (stage : c.2.stage = .failed e) : hooksIn (calls ++ [c]) = hooksIn calls ++ [c.2] := by
  simp [hooksIn, stage]

namespace IsTries

variable {calls : Calls}

theorem handlings_eq (tries : IsTries calls) : handlingsIn calls = calls.map Prod.snd := by
  refine List.filter_eq_self.mpr ?_
  intro c mem
  obtain ⟨c', mem', rfl⟩ := List.mem_map.mp mem
  exact decide_eq_true (tries c' mem').1

theorem hooks_eq (tries : IsTries calls) : hooksIn calls = [] := by
  refine List.filter_eq_nil_iff.mpr ?_
  intro c mem
  obtain ⟨c', mem', rfl⟩ := List.mem_map.mp mem
  simp [(tries c' mem').1]

theorem length_handlings (tries : IsTries calls) : (handlingsIn calls).length = calls.length := by
  rw [tries.handlings_eq, List.length_map]

end IsTries

section shapes

variable {N n i : Nat} {calls : Calls} {e : JobError} {reason : String}

theorem Before.length_handlings (before : Before N n calls) {last : Place × Invocation}
    (stage : last.2.stage = .handle) :
    (handlingsIn (calls ++ [last])).length = n ∧ n ≤ N := by
  rw [handlingsIn_concat calls stage, List.length_append, before.tries.length_handlings]
  exact ⟨before.count, before.le⟩

theorem Succeeds.length_handlings (succeeds : Succeeds N n calls) :
    (handlingsIn calls).length = n ∧ n ≤ N := by
  obtain ⟨tries, last, rfl, before, stage, -⟩ := succeeds
  exact before.length_handlings stage

theorem Fails.length_handlings (fails : Fails N n e calls) :
    (handlingsIn calls).length = n ∧ n ≤ N := by
  obtain ⟨tries, last, rfl, before, stage, -⟩ := fails
  exact before.length_handlings stage

theorem GivenUp.length_handlings (givenUp : GivenUp N n reason calls) :
    (handlingsIn calls).length = n ∧ n ≤ N := by
  obtain ⟨earlier, hook, e, rfl, fails, stage, -⟩ := givenUp
  rw [handlingsIn_concat_hook earlier stage]
  exact fails.length_handlings

/-- While attempt `n` of `N` is made, there were no more invocations than attempts. -/
theorem Doing.length_le {f : Phase} (doing : Doing N n i f calls) :
    (handlingsIn calls).length ≤ n ∧ n ≤ N := by
  have early : ∀ {calls}, Before N n calls → (handlingsIn calls).length ≤ n ∧ n ≤ N := by
    intro calls before
    rw [before.tries.length_handlings]
    have count := before.count
    exact ⟨by omega, before.le⟩
  have made : (handlingsIn calls).length = n ∧ n ≤ N →
      (handlingsIn calls).length ≤ n ∧ n ≤ N := And.imp_left Nat.le_of_eq
  cases doing with
  | holding before => exact early before
  | counted before => exact early before
  | calling before => exact early before
  | running before => exact made (before.length_handlings rfl)
  | hooking fails => exact made fails.length_handlings
  | hooked fails =>
    rw [handlingsIn_concat_hook _ rfl] at made ⊢
    exact made fails.length_handlings
  | acking succeeds => exact made succeeds.length_handlings
  | retrying tries count left =>
    rw [tries.length_handlings]
    exact ⟨Nat.le_of_eq count, Nat.le_of_lt left⟩
  | archiving givenUp => exact made givenUp.length_handlings

end shapes

section course

variable {N : Nat} {r : Record} {holder : Option (Place × Phase)} {calls : Calls}

/-- There are no more invocations than attempts, and no more attempts than the message
gets. -/
theorem Course.length_le (course : Course N r holder calls) :
    (handlingsIn calls).length ≤ r.attempt.toNat ∧ r.attempt.toNat ≤ N := by
  cases course with
  | waiting waits tries count left =>
    rw [tries.length_handlings, count]
    exact ⟨Nat.le_refl _, by omega⟩
  | held active lease_eq delivery doing => exact doing.length_le
  | completed status succeeds =>
    exact ⟨Nat.le_of_eq succeeds.length_handlings.1, succeeds.length_handlings.2⟩
  | archived status givenUp =>
    exact ⟨Nat.le_of_eq givenUp.length_handlings.1, givenUp.length_handlings.2⟩

/-- A message that waits is held by no slot, has failed at each attempt so far, and has
another one. -/
theorem Course.of_isWaiting (course : Course N r holder calls) (waits : r.status.isWaiting) :
    holder = none ∧ IsTries calls ∧ calls.length = r.attempt.toNat ∧ calls.length < N := by
  cases course with
  | waiting _ tries count left => exact ⟨rfl, tries, count, left⟩
  | held active =>
    rw [active] at waits
    cases waits
  | completed status =>
    rw [status] at waits
    cases waits
  | archived status =>
    rw [status] at waits
    cases waits

/-- A message that is handed out while it has another attempt has a next one, without
overflow. -/
theorem attempt_start {N : UInt32} (left : r.attempt.toNat < N.toNat) (lease : LeaseToken)
    (now : Instant) : (r.start lease now).attempt.toNat = r.attempt.toNat + 1 := by
  show (r.attempt + 1).toNat = _
  rw [UInt32.toNat_add]
  exact Nat.mod_eq_of_lt (Nat.lt_of_le_of_lt left N.toNat_lt)

/-- A slot that takes up a message is at its next attempt. -/
theorem Course.start {N : UInt32} (course : Course N.toNat r holder calls)
    (waits : r.status.isWaiting) (lease : LeaseToken) (now : Instant) (place : Place) :
    Course N.toNat (r.start lease now)
      (some (place, .holding ((r.start lease now).delivery lease))) calls := by
  obtain ⟨-, tries, count, left⟩ := course.of_isWaiting waits
  rw [count] at left
  have next := attempt_start left lease now
  refine .held rfl rfl rfl (.holding ⟨tries, ?_, ?_⟩)
  · rw [next, count]
  · rw [next]
    exact left

/-- The verdict of the slot that holds a message ends the attempt. -/
theorem Course.settle {place : Place} {d : Delivery} {outcome : Outcome} {v : Verdict}
    {isCounted : Bool} (course : Course N r (some (place, .settling d outcome v isCounted)) calls)
    (now : Instant) : Course N (r.settle now v) none calls := by
  cases course with
  | held active lease_eq delivery doing =>
    cases doing with
    | acking succeeds => exact .completed rfl succeeds
    | retrying tries count more => exact .waiting rfl tries count (count ▸ more)
    | archiving givenUp => exact .archived rfl givenUp

end course

/-! ## A slot goes on with the message -/

namespace Site

variable {η : Type} {s s' : Site η} {id : JobId} {i slot : Nat} {p : Pool η} {f f' : Phase}
  {move : Move} {calls : List Invocation} {counters : Metrics}

/-- The last invocation of a message ends. -/
theorem callsOf_ended_last (sound : s.Sound) (found : s.pools[i]? = some p) {n : Nat}
    {earlier : Calls} {call : Invocation} (eq : s.callsOf id = earlier ++ [((i, n), call)])
    (ending : Ending) :
    (s.turned i p
        (p.after slot f' (p.invocations.modify n (·.concluded ending)) counters)).callsOf id =
      earlier ++ [((i, n), call.concluded ending)] := by
  have nodup := sound.callsOf_nodup id
  rw [eq, List.map_append, List.nodup_append] at nodup
  rw [callsOf_turned_ended found, eq, List.map_append]
  congr 1
  · refine (List.map_congr_left ?_).trans (List.map_id' _)
    intro c mem
    have ne := nodup.2.2 c.1 (List.mem_map_of_mem mem) (i, n) List.mem_cons_self
    rw [if_neg ne]
  · simp

/-- What a slot makes of a message that its pool can handle is a task for that message,
with a payload that fits. -/
theorem Sound.of_task? (sound : s.Sound) (found : s.pools[i]? = some p)
    (phase : p.slots[slot]? = some f) {d : Delivery} (delivery : f.delivery? = some d)
    (handles : p.Handles d.message) {t : Task} (task : f.task? = some t) :
    t.delivery = d ∧ t.context.job = d.job ∧ ∃ job, t.envelope.toJob t.kind = .ok job := by
  have hf : f ∈ p.slots := List.mem_of_getElem? phase
  have eq : t.delivery = d := by
    rw [Phase.delivery?_of_task? task] at delivery
    exact Option.some.inj delivery
  refine ⟨eq, ?_, ?_⟩
  · rw [(sound.of_mem found).job_eq hf task, eq]
  · exact ((sound.of_mem found).suits f hf t task).exists_job (eq ▸ handles)

/-- A handler that ends decides what follows by its result and by the attempts that are
left. -/
theorem Sound.doing_finish (sound : s.Sound) (found : s.pools[i]? = some p) {t : Task}
    {call : Nat} {job : Job} {tries : Calls}
    (before : Before t.delivery.maxAttempts.toNat t.delivery.attempt.toNat tries)
    (eq : s.callsOf id = tries ++ [((i, call), { stage := .handle, context := t.context, job })])
    (turn : p.Turn (.running t call) move f' calls counters) :
    Doing t.delivery.maxAttempts.toNat t.delivery.attempt.toNat i f'
      ((s.turned i p (p.after slot f' calls counters)).callsOf id) := by
  have result : ∀ ending : Ending,
      (Invocation.concluded { stage := .handle, context := t.context, job } ending).result? =
        some (ending.result (t.context.timeout.getD .zero)) := fun _ => rfl
  have le := before.le
  cases turn with
  | succeeded _ _ ending now success =>
    rw [callsOf_ended_last sound found eq]
    exact .acking ⟨tries, _, rfl, before, rfl, by rw [result, success]⟩
  | @retried _ _ ending now e failure retryable more =>
    rw [callsOf_ended_last sound found eq]
    refine .retrying ?_ ?_ ?_
    · refine before.tries.concat rfl ⟨e.reason, ?_⟩
      rw [result, failure, ← JobError.eq_retryable retryable]
    · rw [List.length_append, List.length_singleton]
      exact before.count
    · rw [Delivery.isLast_iff le] at more
      omega
  | exhausted _ _ ending now failure last =>
    rw [callsOf_ended_last sound found eq]
    refine .hooking ⟨tries, _, rfl, before, rfl, by rw [result, failure], ?_⟩
    intro retryable
    exact (Delivery.isLast_iff le).mp (last retryable)

/-- A slot that works on a message follows its course. -/
theorem Sound.doing_turn (sound : s.Sound) (found : s.pools[i]? = some p)
    (phase : p.slots[slot]? = some f) {d : Delivery} (delivery : f.delivery? = some d)
    (job : d.job = id) (handles : p.Handles d.message)
    (doing : Doing d.maxAttempts.toNat d.attempt.toNat i f (s.callsOf id))
    (turn : p.Turn f move f' calls counters) (own : move.isOwn) :
    Doing d.maxAttempts.toNat d.attempt.toNat i f'
      ((s.turned i p (p.after slot f' calls counters)).callsOf id) := by
  have fits {t : Task} (task : f.task? = some t) :=
    sound.of_task? found phase delivery handles task
  have settle : ∀ {d outcome v isCounted}, f ≠ .settling d outcome v isCounted := by
    rintro d outcome v isCounted rfl
    cases turn <;> cases own
  generalize eq : s.callsOf id = before at doing
  cases doing with
  | holding before =>
    have handled := handles
    obtain ⟨v, kind, handler, job, read, resolved, -⟩ := handles
    cases delivery
    cases turn with
    | malformed unread =>
      rw [read] at unread
      cases unread
    | unknown read' unresolved =>
      rw [read] at read'
      cases read'
      rw [resolved] at unresolved
      cases unresolved
    | counted suits =>
      rw [callsOf_turned_same found, eq]
      exact .counted before
  | counted before =>
    cases turn with
    | raised =>
      rw [callsOf_turned_same found, eq]
      exact .calling before
  | calling before =>
    obtain ⟨-, about, payload, ok⟩ := fits rfl
    cases turn with
    | mismatched unfit =>
      rw [ok] at unfit
      cases unfit
    | called =>
      rw [callsOf_turned_begun sound found, if_pos (about.trans job), eq]
      exact .running before
  | running before =>
    obtain ⟨rfl, -⟩ := fits rfl
    exact sound.doing_finish found before eq turn
  | hooking fails =>
    obtain ⟨-, about, payload, ok⟩ := fits rfl
    cases turn with
    | untold e unfit =>
      rw [ok] at unfit
      cases unfit
    | told =>
      rw [callsOf_turned_begun sound found, if_pos (about.trans job), eq]
      exact .hooked fails
  | hooked fails =>
    cases turn with
    | learned _ _ _ ending =>
      rw [callsOf_ended_last sound found eq]
      exact .archiving ⟨_, _, _, rfl, fails, rfl, rfl⟩
  | acking => exact absurd rfl settle
  | retrying => exact absurd rfl settle
  | archiving => exact absurd rfl settle

end Site

end JobQueue
