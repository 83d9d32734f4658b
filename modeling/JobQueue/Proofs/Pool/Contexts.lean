import JobQueue.Proofs.Pool.Concurrency
import JobQueue.Proofs.Pool.Tokens
import JobQueue.Session.Crew

/-!
# Cancelled contexts

A context is cancelled for one of two reasons: its invocation was cut off, or the wait of a
stop has ended.  `Pool.CancelsExactly` says so of every invocation of a pool, and of
everything that may happen to the pool next.  A `Pool.Trace` is a run that remembers when the
waits of stops ended.

An invocation is cut off by the limit for it (`Pool.limit?`), which on the clock of a crew runs
from when its slot began to wait (`Crew.WaitsSince.due`).
-/

namespace JobQueue

variable {η : Type}

/-! ## What happens to a pool -/

/-- How long the invocation might take that the slot waits for before a step. -/
def Deed.limit? (x : Deed η) : Option Span := x.old?.bind x.before.limit?

/-- What happens to a pool. -/
inductive Happening (η : Type) where
  /-- A slot makes a step. -/
  | did (x : Deed η)
  /-- The pool is asked to stop. -/
  | asked
  /-- The wait of a stop ends because all slots have left. -/
  | joined
  /-- The wait of a stop ends because its time is over. -/
  | expired

namespace Happening

/-- The step of a slot. -/
def deed? : Happening η → Option (Deed η)
  | did x => some x
  | _ => none

/-- The invocation that is cut off. -/
def cut? (h : Happening η) : Option Nat := h.deed?.bind Deed.cut?

/-- Whether the wait of a stop ends. -/
def endsStop : Happening η → Bool
  | joined | expired => true
  | _ => false

end Happening

namespace Pool

/-- Something happens to a pool. -/
inductive Happens (p : Pool η) : Happening η → Pool η → Prop where
  | did {p' : Pool η} {notices : List Notice} (slot : Nat) (m : Move)
    (h : p.step slot m = some (p', notices)) : Happens p (.did ⟨p, slot, m, p'⟩) p'
  | asked : Happens p .asked p.requestStop.1
  | joined {p' : Pool η} {notices : List Notice} (h : p.join? = some (p', notices)) :
    Happens p .joined p'
  | expired : Happens p .expired p.abandon.2.1

/-- What happened to a pool since a worker was started.  This is a run that remembers the
stops. -/
inductive Trace (w : Worker η) : List (Happening η) → Pool η → Prop where
  | start : Trace w [] (Pool.start w).1
  | next {past : List (Happening η)} {p p' : Pool η} {h : Happening η} (trace : Trace w past p)
    (happens : p.Happens h p') : Trace w (past ++ [h]) p'

variable {w : Worker η} {past : List (Happening η)} {deeds : List (Deed η)} {p p' : Pool η}
  {h : Happening η}

theorem Trace.run (trace : Trace w past p) : Run w (past.filterMap Happening.deed?) p := by
  induction trace with
  | start => exact .start
  | next trace happens ih =>
    rw [List.filterMap_append]
    cases happens with
    | did slot m h => exact ih.moved slot m h
    | asked => simpa [List.filterMap_cons, Happening.deed?] using ih.stopping
    | joined h => simpa [List.filterMap_cons, Happening.deed?] using ih.joined h
    | expired => simpa [List.filterMap_cons, Happening.deed?] using ih.abandoned

/-- Nothing happens in a run that a trace does not tell. -/
theorem Run.exists_trace (run : Run w deeds p) :
    ∃ past, Trace w past p ∧ past.filterMap Happening.deed? = deeds := by
  induction run with
  | start => exact ⟨[], .start, rfl⟩
  | moved run slot m h ih =>
    obtain ⟨past, trace, rfl⟩ := ih
    exact ⟨_, trace.next (.did slot m h), List.filterMap_append⟩
  | stopping run ih =>
    obtain ⟨past, trace, rfl⟩ := ih
    exact ⟨_, trace.next .asked, by simp [Happening.deed?]⟩
  | joined run h ih =>
    obtain ⟨past, trace, rfl⟩ := ih
    exact ⟨_, trace.next (.joined h), by simp [Happening.deed?]⟩
  | abandoned run ih =>
    obtain ⟨past, trace, rfl⟩ := ih
    exact ⟨_, trace.next .expired, by simp [Happening.deed?]⟩

theorem Happens.isOver (happens : p.Happens h p') : p'.isOver = (p.isOver || h.endsStop) := by
  cases happens with
  | did slot m h =>
    obtain ⟨f, -, f', calls, counters, -, rfl⟩ := turn_of_step h
    exact (Bool.or_false _).symm
  | asked => exact (Bool.or_false _).symm
  | joined h =>
    unfold join? at h
    split at h <;> cases h
    exact (Bool.or_true _).symm
  | expired => exact (Bool.or_true _).symm

/-- A pool is over once the wait of a stop has ended. -/
theorem Trace.isOver (trace : Trace w past p) : p.isOver = past.any Happening.endsStop := by
  induction trace with
  | start => rfl
  | next trace happens ih => rw [happens.isOver, ih, List.any_append]; simp

/-! ## The contexts of a pool -/

theorem Trace.isCut_eq (trace : Trace w past p) (n : Nat) :
    (p.invocations[n]?).any Invocation.isCut = past.any (·.cut? == some n) := by
  rw [trace.run.isCut_eq, List.any_filterMap]
  refine congrArg past.any (funext fun h => ?_)
  cases h <;> rfl

theorem Trace.isCancelled_eq (trace : Trace w past p) {n : Nat} (bound : n < p.invocations.length) :
    p.isCancelled n = (past.any (·.cut? == some n) || past.any Happening.endsStop) := by
  have found := List.getElem?_eq_getElem bound
  rw [trace.run.isCancelled_eq found, trace.isOver, ← trace.isCut_eq, found]
  rfl

/-- Invocations begin with the steps of slots, and are not forgotten. -/
theorem Happens.invocations (happens : p.Happens h p') :
    p'.invocations = p.invocations ∨ h.endsStop = false ∧
      p.invocations.length ≤ p'.invocations.length := by
  cases happens with
  | did slot m h =>
    obtain ⟨f, -, f', calls, counters, turn, rfl⟩ := turn_of_step h
    obtain ⟨more, -, lengths⟩ := turn.acts.ofCalls
    exact .inr ⟨rfl, lengths ▸ Nat.le_add_right _ _⟩
  | asked => exact .inl rfl
  | joined h =>
    unfold join? at h
    split at h <;> cases h
    exact .inl rfl
  | expired => exact .inl rfl

/-- What is cut off runs, and has run out of the time that its slot gives it. -/
theorem Happens.limited (run : Run w deeds p) {x : Deed η} (happens : p.Happens (.did x) p')
    {n : Nat} (cut : x.cut? = some n) :
    ∃ i limit, p.invocations[n]? = some i ∧ i.ending = none ∧ x.limit? = some limit ∧
      i.limit? w.settings = some limit := by
  cases happens with
  | did slot m h =>
    obtain ⟨f, found, cut⟩ := Option.bind_eq_some_iff.mp cut
    obtain ⟨i, old, runs, eq⟩ :=
      run.waits.runs f (List.mem_of_getElem? found) n (Phase.call?_of_cut? cut)
    obtain ⟨limit, has⟩ := Option.isSome_iff_exists.mp (limit?_of_step h found cut)
    refine ⟨i, limit, old, runs, ?_, ?_⟩
    · rw [Deed.limit?, found]
      exact has
    · rw [← run.start_eq.2.2, eq, has]

/-- Whether of the contexts of a pool those are cancelled that are to be. -/
structure CancelsExactly (w : Worker η) (past : List (Happening η)) (p : Pool η) : Prop where
  /-- Every invocation has a token of its own. -/
  separate : p.tokens.ofCalls.length = p.invocations.length ∧ p.tokens.ofCalls.Nodup
  /-- A context is cancelled if its invocation was cut off or the wait of a stop has ended. -/
  cancelled : ∀ n i, p.invocations[n]? = some i →
    (p.isCancelled n ↔ i.isCut ∨ ∃ e ∈ past, e.endsStop)
  /-- An invocation was cut off if its slot did so. -/
  cut : ∀ n i, p.invocations[n]? = some i → (i.isCut ↔ ∃ e ∈ past, e.cut? = some n)
  /-- What happens next cuts off an invocation that runs, and only by the limit for it. -/
  limited : ∀ x p', p.Happens (.did x) p' → ∀ n, x.cut? = some n →
    ∃ i limit, p.invocations[n]? = some i ∧ i.ending = none ∧ x.limit? = some limit ∧
      i.limit? w.settings = some limit
  /-- It cancels the context of the invocation that it cuts off, or all if it ends the wait of
  a stop. -/
  isolated : ∀ h p', p.Happens h p' → ∀ n < p.invocations.length,
    (p'.isCancelled n ↔ p.isCancelled n ∨ h.cut? = some n ∨ h.endsStop)
  /-- If an invocation begins with it, the context of that is live unless the wait of a stop
  has ended. -/
  live : ∀ h p', p.Happens h p' → ∀ n, p.invocations.length ≤ n → n < p'.invocations.length →
    (p'.isCancelled n ↔ ∃ e ∈ past, e.endsStop)

/-- However the slots take turns, whatever the broker replies and the handlers do, and whenever
the pool is stopped, those contexts are cancelled that are to be. -/
theorem Trace.cancels_exactly (trace : Trace w past p) : p.CancelsExactly w past where
  separate := ⟨trace.run.length_ofCalls, trace.run.nodup_ofCalls⟩
  cancelled n i found := by
    rw [trace.run.isCancelled_eq found, trace.isOver, Bool.or_eq_true, List.any_eq_true]
  cut n i found := by
    have cut := trace.isCut_eq n
    rw [found] at cut
    rw [show i.isCut = _ from cut, List.any_eq_true]
    simp only [beq_iff_eq]
  limited x p' happens n cut := happens.limited trace.run cut
  isolated h p' happens n bound := by
    have later : n < p'.invocations.length := by
      rcases happens.invocations with same | ⟨-, le⟩
      · rwa [same]
      · exact Nat.lt_of_lt_of_le bound le
    rw [(trace.next happens).isCancelled_eq later, trace.isCancelled_eq bound]
    simp only [List.any_append, List.any_cons, List.any_nil, Bool.or_false, Bool.or_eq_true,
      beq_iff_eq]
    exact or_or_or_comm
  live h p' happens n ge bound := by
    rcases happens.invocations with same | ⟨goesOn, -⟩
    · rw [same] at bound
      exact absurd bound (Nat.not_lt_of_le ge)
    have before : past.any (·.cut? == some n) = false := by
      rw [← trace.isCut_eq, List.getElem?_eq_none ge]
      rfl
    have here : (h.cut? == some n) = false := by
      refine beq_false_of_ne fun cut => ?_
      cases h with
      | did x =>
        obtain ⟨i, limit, found, -⟩ := happens.limited trace.run cut
        exact absurd (List.getElem?_eq_some_iff.mp found).1 (Nat.not_lt_of_le ge)
      | _ => cases cut
    rw [(trace.next happens).isCancelled_eq bound, List.any_append, List.any_append, before]
    simp [here, goesOn]

/-- A delivery of which the last attempt may take a second. -/
def exampleTimed : Delivery :=
  { exampleDelivery with
    message := { exampleDelivery.message with timeout := some (.ofSeconds 1) } }

/-- A handler is cut off while another one runs.  Then it learns that its job failed, and the
time of a stop is over. -/
theorem cancels_exactly_of_example :
    ∃ past p p', Trace exampleTwo past p ∧ p.CancelsExactly exampleTwo past ∧
      [0, 1, 2].map p.isCancelled = [true, false, false] ∧ p.Happens .expired p' ∧
      p'.CancelsExactly exampleTwo (past ++ [.expired]) ∧
      [0, 1, 2].map p'.isCancelled = [true, true, true] := by
  have trace : Trace exampleTwo _ _ := .start
  have trace := trace.next (.did 0 .check rfl)
  have trace := trace.next (.did 1 .check rfl)
  have trace := trace.next (.did 0 (.pull (.answered (.ok (some exampleTimed)))) rfl)
  have trace := trace.next
    (.did 1 (.pull (.answered (.ok (some { exampleTimed with job := ⟨"2"⟩ })))) rfl)
  have trace := trace.next (.did 0 .look rfl)
  have trace := trace.next (.did 1 .look rfl)
  have trace := trace.next (.did 0 .raise rfl)
  have trace := trace.next (.did 1 .raise rfl)
  have trace := trace.next (.did 0 .call rfl)
  have trace := trace.next (.did 1 .call rfl)
  have trace := trace.next (.did 0 (.finish .timedOut .epoch) rfl)
  have trace := trace.next (.did 0 .callHook rfl)
  have trace := trace.next .asked
  exact ⟨_, _, _, trace, trace.cancels_exactly, rfl, .expired,
    (trace.next .expired).cancels_exactly, rfl⟩

end Pool

/-! ## The clock of a crew -/

/-- The alarm at which a handler is cut off. -/
def Wait.limit? : Wait → Option Alarm
  | action _ _ limit | ending _ limit => limit
  | _ => none

/-- What a slot of a crew waits for that began to wait in a phase at a time. -/
inductive Crew.WaitsSince (c : Crew) (f : Phase) (began : Nat) : Wait → Prop where
  /-- Its handler is about to act. -/
  | begun (number : Nat) : WaitsSince c f began (c.waitOf began number f)
  /-- Its handler acts. -/
  | acts {wait : Wait} {now : Nat} {isCancelled hadWait : Bool} {action : Action}
    {limit : Option Alarm} (since : WaitsSince c f began wait)
    (goes : wait.progress now isCancelled = .acts action hadWait limit) :
    WaitsSince c f began (.ending action.act limit)

theorem Progress.blocked_eq_timedOut {now : Nat} {limit : Option Alarm}
    (cut : blocked now limit = .ends .timedOut) : ∃ a, limit = some a ∧ a.due ≤ now := by
  unfold blocked at cut
  split at cut
  · next due => simpa [Option.any_eq_true] using due
  · cases cut

theorem Wait.limit?_of_acts {wait : Wait} {now : Nat} {isCancelled hadWait : Bool}
    {action : Action} {limit : Option Alarm}
    (goes : wait.progress now isCancelled = .acts action hadWait limit) : limit = wait.limit? := by
  unfold progress Progress.blocked at goes
  grind [limit?]

theorem Wait.due_of_timedOut {wait : Wait} {now : Nat} {isCancelled : Bool}
    (cut : wait.progress now isCancelled = .ends .timedOut) :
    ∃ a, wait.limit? = some a ∧ a.due ≤ now := by
  cases wait with
  | nothing | pause => cases cut
  | action a alarm limit =>
    cases alarm with
    | none => cases cut
    | some alarm =>
      rw [progress] at cut
      split at cut
      · cases cut
      · exact Progress.blocked_eq_timedOut cut
  | ending act limit =>
    cases act with
    | park =>
      rw [progress] at cut
      split at cut
      · cases cut
      · exact Progress.blocked_eq_timedOut cut
    | hang => exact Progress.blocked_eq_timedOut cut
    | _ => cases cut

namespace Crew

variable {c : Crew} {f : Phase} {began : Nat} {wait : Wait}

theorem WaitsSince.limit?_eq (since : c.WaitsSince f began wait) {a : Alarm}
    (armed : wait.limit? = some a) :
    ∃ limit, c.pool.limit? f = some limit ∧ a.due = began + limit.asWait.millisUp := by
  induction since with
  | begun number =>
    cases f with
    | running =>
      obtain ⟨limit, has, rfl⟩ := Option.map_eq_some_iff.mp armed
      exact ⟨limit, has, rfl⟩
    | hooked =>
      cases armed
      exact ⟨_, rfl, rfl⟩
    | _ => cases armed
  | acts since goes ih => exact ih (Wait.limit?_of_acts goes ▸ armed)

/-- A handler is not cut off before the limit for its invocation has passed since its slot
began to wait. -/
theorem WaitsSince.due (since : c.WaitsSince f began wait) {now : Nat} {isCancelled : Bool}
    (cut : wait.progress now isCancelled = .ends .timedOut) :
    ∃ limit, c.pool.limit? f = some limit ∧ began + limit.asWait.millisUp ≤ now := by
  obtain ⟨a, armed, due⟩ := Wait.due_of_timedOut cut
  obtain ⟨limit, has, eq⟩ := since.limit?_eq armed
  exact ⟨limit, has, eq ▸ due⟩

end Crew

end JobQueue
