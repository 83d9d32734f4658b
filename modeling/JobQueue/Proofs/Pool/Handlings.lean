import JobQueue.Proofs.Pool.Messages

/-!
# How a slot handles a message

What a slot does about a message that it has pulled is read off its steps
(`Account.of`): the invocations that it begins, how the handler ends, the outcomes that
it counts and what it tells the broker.  `Ends` is the table of how a message may end.

`Deals` says for each phase how much of a line of that table a slot has done so far, and
every turn of the slot goes on along the line (`Pool.Turn.deals`).
-/

namespace JobQueue

variable {η : Type}

/-! ## Accounts -/

/-- The outcomes that were counted between two tallies, each with how often. -/
def Tally.counted (t t' : Tally) : List (Outcome × UInt64) :=
  [.succeeded, .retried, .failed, .dropped].filterMap fun o =>
    if t'.count o = t.count o then none else some (o, t'.count o - t.count o)

@[simp] theorem Tally.counted_self (t : Tally) : t.counted t = [] := by
  simp [counted]

@[simp] theorem Tally.counted_record (t : Tally) (o : Outcome) :
    t.counted (t.record o) = [(o, 1)] := by
  have more (n : UInt64) : n + 1 ≠ n := by grind
  have one (n : UInt64) : n + 1 - n = 1 := by grind
  cases o <;> simp [counted, record, count, more, one]

@[simp] theorem Metrics.total_record (m : Metrics) (type : String) (o : Outcome) :
    (m.record type o).total = m.total.record o := rfl

@[simp] theorem Metrics.total_enter (m : Metrics) : m.enter.total = m.total := rfl

@[simp] theorem Metrics.total_raise (m : Metrics) (current : Nat) :
    (m.raise current).total = m.total := rfl

@[simp] theorem Metrics.total_leave (m : Metrics) : m.leave.total = m.total := rfl

/-- How a handler ends with a move. -/
@[simp] def Move.ended? : Move → Option (Ending × Instant)
  | finish ending now => some (ending, now)
  | _ => none

/-- The invocations that begin with a step, with their handlers. -/
def Deed.begun (x : Deed η) : List (Option η × Invocation) :=
  (x.after.invocations.drop x.before.invocations.length).map fun i => (x.before.handler? i, i)

/-- The outcomes that are counted with a step. -/
def Deed.counted (x : Deed η) : List (Outcome × UInt64) :=
  x.before.metrics.total.counted x.after.metrics.total

/-- What a slot does about a message. -/
structure Account (η : Type) where
  /-- The invocations that it begins, with their handlers. -/
  calls : List (Option η × Invocation) := []
  /-- How the handler ends, and when. -/
  endings : List (Ending × Instant) := []
  /-- The outcomes that it counts. -/
  counts : List (Outcome × UInt64) := []
  /-- What it tells the broker, whatever the reply. -/
  rulings : List Ruling := []

namespace Account

instance : Append (Account η) where
  append a b := ⟨a.calls ++ b.calls, a.endings ++ b.endings, a.counts ++ b.counts,
    a.rulings ++ b.rulings⟩

@[simp] theorem append_mk (calls calls' : List (Option η × Invocation))
    (endings endings' : List (Ending × Instant)) (counts counts' : List (Outcome × UInt64))
    (rulings rulings' : List Ruling) :
    mk calls endings counts rulings ++ mk calls' endings' counts' rulings' =
      mk (calls ++ calls') (endings ++ endings') (counts ++ counts') (rulings ++ rulings') := rfl

@[simp] theorem append_empty (a : Account η) : a ++ ({} : Account η) = a := by
  cases a
  simp

theorem append_assoc (a b c : Account η) : a ++ b ++ c = a ++ (b ++ c) := by
  cases a
  cases b
  cases c
  simp

/-- What is done in some steps. -/
def of (steps : List (Deed η)) : Account η where
  calls := steps.flatMap Deed.begun
  endings := steps.filterMap fun x => x.move.ended?
  counts := steps.flatMap Deed.counted
  rulings := Pool.ruled steps

theorem of_append (steps more : List (Deed η)) : of (steps ++ more) = of steps ++ of more := by
  simp [of, Pool.ruled]

/-- What is done in one step, by the phase and the move of the slot. -/
theorem of_deed {p : Pool η} {slot : Nat} {f f' : Phase} (found : p.slots[slot]? = some f)
    (m : Move) (calls : List Invocation) (counters : Metrics) :
    of [⟨p, slot, m, p.after slot f' calls counters⟩] =
      { calls := (calls.drop p.invocations.length).map fun i => (p.handler? i, i)
        endings := m.ended?.toList
        counts := p.metrics.total.counted counters.total
        rulings := (match m with | .settle _ => f.ruling? | _ => none).toList } := by
  have ruled (x : Deed η) : Pool.ruled [x] = x.ruling?.toList := by
    rw [Pool.ruled, List.filterMap_eq_flatMap_toList]
    exact List.append_nil _
  rw [of, ruled]
  cases m <;>
    simp [Deed.begun, Deed.counted, Deed.ruling?, Deed.old?, found, Pool.after]

end Account

/-! ## How a message ends -/

/-- How a delivery ends: what is counted, the verdict, the invocations and how the handler
ended. -/
inductive Ends (w : Worker η) (d : Delivery) :
    Outcome → Verdict → List (Option η × Invocation) → List (Ending × Instant) → Prop where
  /-- Something is wrong with the message, and no attempt can mend it. -/
  | dropped {e : QueueError} (fault : w.take d.message = .error e) (terminal : e.isTerminal) :
    Ends w d .dropped (.archive e.message) [] []
  /-- The handler succeeds. -/
  | succeeded {tag : String} {handler : η} {job : Job} {ending : Ending}
    (taken : w.take d.message = .ok (tag, handler, job))
    (result : ending.result ((w.limit? d).getD .zero) = .ok ()) (now : Instant) :
    Ends w d .succeeded .ack [(some handler, w.invocation d tag job .handle)] [(ending, now)]
  /-- The handler fails, and may be tried again. -/
  | retried {tag : String} {handler : η} {job : Job} {ending : Ending}
    {e : JobError} (taken : w.take d.message = .ok (tag, handler, job))
    (result : ending.result ((w.limit? d).getD .zero) = .error e) (retryable : e.isRetryable)
    (more : d.attempt < d.maxAttempts) (now : Instant) :
    Ends w d .retried
      (.retry (now.after (retryDelay w.settings.retryBackoff d.attempt)) e.reason)
      [(some handler, w.invocation d tag job .handle)] [(ending, now)]
  /-- The handler fails for good, and is told so. -/
  | failed {tag : String} {handler : η} {job : Job} {ending : Ending}
    {e : JobError} (taken : w.take d.message = .ok (tag, handler, job))
    (result : ending.result ((w.limit? d).getD .zero) = .error e)
    (last : e.isRetryable → d.maxAttempts ≤ d.attempt) (now : Instant) :
    Ends w d .failed (.archive e.reason)
      [(some handler, w.invocation d tag job .handle),
        (some handler, w.invocation d tag job (.failed e))]
      [(ending, now)]

/-- Whether an account is that of a delivery with one verdict and one count. -/
def Settles (w : Worker η) (d : Delivery) (a : Account η) : Prop :=
  ∃ outcome v calls endings, Ends w d outcome v calls endings ∧
    a = { calls, endings, counts := [(outcome, 1)], rulings := [⟨d, outcome, v⟩] }

theorem Settles.intro {w : Worker η} {d : Delivery} {outcome : Outcome} {v : Verdict}
    {calls : List (Option η × Invocation)} {endings : List (Ending × Instant)}
    (ends : Ends w d outcome v calls endings) :
    Settles w d { calls, endings, counts := [(outcome, 1)], rulings := [⟨d, outcome, v⟩] } :=
  ⟨outcome, v, calls, endings, ends, rfl⟩

/-- How much a slot in a phase has done about a delivery that it pulled. -/
inductive Deals (w : Worker η) (d : Delivery) : Phase → Account η → Prop where
  | holding : Deals w d (.holding d) {}
  | counted {t : Task} (about : t.delivery = d) (current : Nat) : Deals w d (.counted t current) {}
  | calling {t : Task} (about : t.delivery = d) : Deals w d (.calling t) {}
  | running {t : Task} {handler : η} {job : Job} (about : t.delivery = d)
    (taken : w.take d.message = .ok (t.envelope.type, handler, job)) (call : Nat) :
    Deals w d (.running t call)
      { calls := [(some handler, w.invocation d t.envelope.type job .handle)] }
  | hooking {t : Task} {handler : η} {job : Job} {ending : Ending} {e : JobError}
    (about : t.delivery = d) (taken : w.take d.message = .ok (t.envelope.type, handler, job))
    (result : ending.result ((w.limit? d).getD .zero) = .error e)
    (last : e.isRetryable → d.maxAttempts ≤ d.attempt) (now : Instant) :
    Deals w d (.hooking t e)
      { calls := [(some handler, w.invocation d t.envelope.type job .handle)]
        endings := [(ending, now)] }
  | hooked {t : Task} {calls : List (Option η × Invocation)} {endings : List (Ending × Instant)}
    {e : JobError} (about : t.delivery = d)
    (ends : Ends w d .failed (.archive e.reason) calls endings) (call : Nat) :
    Deals w d (.hooked t e call) { calls, endings }
  | settling {outcome : Outcome} {v : Verdict} {calls : List (Option η × Invocation)}
    {endings : List (Ending × Instant)} (ends : Ends w d outcome v calls endings)
    (isCounted : Bool) :
    Deals w d (.settling d outcome v isCounted) { calls, endings, counts := [(outcome, 1)] }
  | finished {f : Phase} {a : Account η} (empty : f.delivery? = none) (settles : Settles w d a) :
    Deals w d f a

namespace Deals

variable {w : Worker η} {d : Delivery} {f : Phase} {a : Account η}

theorem congr {a' : Account η} (deals : Deals w d f a) (eq : a' = a) : Deals w d f a' :=
  eq ▸ deals

/-- A slot drops a message that is wrong. -/
theorem dropped {e : QueueError} (fault : w.take d.message = .error e) (isCounted : Bool) :
    Deals w d (.settling d .dropped (.archive e.message) isCounted)
      { counts := [(.dropped, 1)] } :=
  .settling (.dropped fault (w.isTerminal_of_take fault)) isCounted

/-- A slot that has nothing in its hands is done. -/
theorem settles (deals : Deals w d f a) (empty : f.delivery? = none) : Settles w d a := by
  cases deals with
  | finished _ settles => exact settles
  | _ => cases empty

/-- A slot that has a message in its hands has told the broker nothing. -/
theorem rulings (deals : Deals w d f a) (has : f.delivery? ≠ none) :
    f.delivery? = some d ∧ a.rulings = [] := by
  cases deals with
  | finished empty => exact absurd empty has
  | counted about | calling about | running about | hooking about | hooked about =>
    exact ⟨congrArg some about, rfl⟩
  | _ => exact ⟨rfl, rfl⟩

end Deals

theorem Delivery.isLast_iff_le {d : Delivery} : d.isLast ↔ d.maxAttempts ≤ d.attempt := by
  simp [isLast]

namespace Pool

variable {w : Worker η} {deeds : List (Deed η)} {p : Pool η} {slot : Nat} {f f' : Phase}
  {m : Move} {calls : List Invocation} {counters : Metrics} {d : Delivery} {a : Account η}

/-- A turn in which a slot pulls nothing goes on with what the slot does. -/
theorem Turn.deals (run : Run w deeds p) (turn : p.Turn f m f' calls counters)
    (found : p.slots[slot]? = some f)
    (stays : (Deed.mk p slot m (p.after slot f' calls counters)).pulled? = none)
    (deals : Deals w d f a) :
    Deals w d f' (a ++ Account.of [⟨p, slot, m, p.after slot f' calls counters⟩]) := by
  have knows := run.knows f (List.mem_of_getElem? found)
  have limit {t : Task} (suits : p.Suits t) : t.context.timeout = w.limit? t.delivery := by
    rw [run.context_eq suits]
    rfl
  rw [Account.of_deed found]
  cases deals with
  | holding =>
    cases turn with
    | malformed unread =>
      obtain ⟨fault, -⟩ := run.take_of_malformed unread
      exact (Deals.dropped fault _).congr (by simp)
    | unknown read unresolved =>
      obtain ⟨fault, -⟩ := run.take_of_unknown read unresolved
      exact (Deals.dropped fault _).congr (by simp)
    | counted suits => exact (Deals.counted rfl _).congr (by simp)
  | counted about current =>
    cases turn
    exact (Deals.calling about).congr (by simp)
  | calling about =>
    cases about
    cases turn with
    | mismatched unfit =>
      exact (Deals.dropped (run.take_of_mismatched knows unfit) _).congr (by simp)
    | called fits =>
      obtain ⟨handler, taken, found⟩ := run.take_of_fits knows fits
      exact (Deals.running rfl taken _).congr (by simp [run.invocation_eq knows, found])
  | running about taken =>
    cases about
    cases turn with
    | succeeded t call ending now result =>
      rw [limit knows.1] at result
      exact (Deals.settling (.succeeded taken result now) _).congr (by simp)
    | retried t call ending now result retryable more =>
      rw [limit knows.1] at result
      rw [Delivery.isLast_iff_le, UInt32.not_le] at more
      rw [run.start_eq.2.2]
      exact (Deals.settling (.retried taken result retryable more now) _).congr (by simp)
    | exhausted t call ending now result last =>
      rw [limit knows.1] at result
      rw [Delivery.isLast_iff_le] at last
      exact (Deals.hooking rfl taken result last now).congr (by simp)
  | hooking about taken result last now =>
    cases about
    cases turn with
    | untold e unfit =>
      obtain ⟨job, fits⟩ := knows.2
      rw [fits] at unfit
      cases unfit
    | told e fits =>
      obtain ⟨handler, taken', found⟩ := run.take_of_fits knows.1 fits
      rw [taken] at taken'
      cases taken'
      exact (Deals.hooked rfl (.failed taken result last now) _).congr
        (by simp [run.invocation_eq knows.1, found])
  | hooked about ends call =>
    cases about
    cases turn
    exact (Deals.settling ends _).congr (by simp)
  | settling ends isCounted =>
    have settles := Settles.intro ends
    cases turn with
    | settled | settleCrashed =>
      exact (Deals.finished rfl settles).congr (by cases isCounted <;> simp [Phase.ruling?])
  | finished empty settles =>
    have finished {f'' : Phase} (empty : f''.delivery? = none) : Deals w d f'' a :=
      .finished empty settles
    cases turn with
    | checked => exact (finished (by split <;> rfl)).congr (by simp)
    | pulled => cases stays
    | nothing | failed | pullCrashed | woken => exact (finished rfl).congr (by simp)
    | _ => cases empty

end Pool

end JobQueue
