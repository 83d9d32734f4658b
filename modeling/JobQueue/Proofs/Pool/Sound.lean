import JobQueue.Proofs.Pool.Turns

/-!
# What slots know

A slot carries what it found out about its message from phase to phase.
`Pool.Sound` says that this stays true: its task is what the pool makes of the
delivery, the invocation that it waits for has the context of its task, and all
messages of the pool are among those that are known and come from its queues.

`Pool.Sound.after` has it that every turn keeps this, given what the slot is told of
a message that it gets.
-/

namespace JobQueue

theorem Phase.delivery?_of_task? {f : Phase} {t : Task} (h : f.task? = some t) :
    f.delivery? = some t.delivery := by
  cases f <;> cases h <;> rfl

namespace Pool

variable {η : Type} {p : Pool η} {f f' : Phase} {m : Move} {calls : List Invocation}
  {counters : Metrics}

/-! ## Turns and deliveries -/

/-- Without the broker a slot keeps the message that it has, or has none. -/
theorem Turn.delivery?_eq (turn : p.Turn f m f' calls counters) (own : m.isOwn) :
    f'.delivery? = f.delivery? := by
  cases turn with
  | checked => split <;> rfl
  | pulled | nothing | failed | pullCrashed | settled | settleCrashed => cases own
  | _ => rfl

/-- A slot makes its task of its delivery once. -/
theorem Turn.suits (turn : p.Turn f m f' calls counters) {t : Task} (h : f'.task? = some t) :
    f.task? = some t ∨ p.Suits t := by
  cases turn with
  | checked => split at h <;> cases h
  | counted suits =>
    cases h
    exact .inr suits
  | raised | called | exhausted | told => exact .inl h
  | _ => cases h

/-- The invocation that a slot begins in a phase. -/
inductive Asks : Phase → Stage → Task → Job → Prop where
  /-- Of the part that does the job. -/
  | handle {t : Task} {job : Job} (fits : t.envelope.toJob t.kind = .ok job) :
    Asks (.calling t) .handle t job
  /-- Of the part that learns that the job failed for good. -/
  | hook {t : Task} {e : JobError} {job : Job} (fits : t.envelope.toJob t.kind = .ok job) :
    Asks (.hooking t e) (.failed e) t job

theorem Asks.task? {stage : Stage} {t : Task} {job : Job} (asks : Asks f stage t job) :
    f.task? = some t := by
  cases asks <;> rfl

theorem Asks.toJob {stage : Stage} {t : Task} {job : Job} (asks : Asks f stage t job) :
    t.envelope.toJob t.kind = .ok job := by
  cases asks with
  | handle fits => exact fits
  | hook fits => exact fits

/-- What a turn does to the invocations of a pool. -/
inductive Calls (p : Pool η) (f f' : Phase) : List Invocation → Prop where
  /-- Nothing. -/
  | same (idle : f'.call? = none) : Calls p f f' p.invocations
  /-- One begins. -/
  | begun (t : Task) (stage : Stage) (job : Job) (asks : Asks f stage t job)
    (after : f'.task? = some t) (waits : f'.call? = some p.invocations.length) :
    Calls p f f' (p.invocations ++ [{ stage, context := t.context, job }])
  /-- One ends. -/
  | ended (t : Task) (call : Nat) (ending : Ending) (before : f.task? = some t)
    (waited : f.call? = some call) (idle : f'.call? = none) :
    Calls p f f' (p.invocations.modify call (·.concluded ending))

theorem Turn.effect (turn : p.Turn f m f' calls counters) : p.Calls f f' calls := by
  cases turn with
  | checked => exact .same (by split <;> rfl)
  | called fits => exact .begun _ _ _ (.handle fits) rfl rfl
  | succeeded => exact .ended _ _ _ rfl rfl rfl
  | retried => exact .ended _ _ _ rfl rfl rfl
  | exhausted => exact .ended _ _ _ rfl rfl rfl
  | told e fits => exact .begun _ _ _ (.hook fits) rfl rfl
  | learned => exact .ended _ _ _ rfl rfl rfl
  | _ => exact .same rfl

/-- Invocations keep their contexts. -/
theorem Calls.context (h : p.Calls f f' calls) {n : Nat} {i : Invocation}
    (old : p.invocations[n]? = some i) : ∃ i', calls[n]? = some i' ∧ i'.context = i.context := by
  cases h with
  | same => exact ⟨i, old, rfl⟩
  | begun =>
    refine ⟨i, ?_, rfl⟩
    rw [List.getElem?_append_left (List.getElem?_eq_some_iff.mp old).1, old]
  | ended t call ending =>
    rw [List.getElem?_modify, old]
    by_cases eq : call = n
    · exact ⟨i.concluded ending, by simp [eq], rfl⟩
    · exact ⟨i, by simp [eq], rfl⟩

/-! ## Soundness -/

/-- Whether what the slots of a pool know is true, for messages among some that are
known. -/
structure Sound (p : Pool η) (known : List JobId) : Prop where
  /-- Every message that a slot has is known and comes from a queue of the pool. -/
  delivery : ∀ f ∈ p.slots, ∀ d, f.delivery? = some d →
    d.job ∈ known ∧ d.message.queue ∈ p.schedule.names
  /-- Every task is what the pool makes of its delivery. -/
  suits : ∀ f ∈ p.slots, ∀ t, f.task? = some t → p.Suits t
  /-- The invocation that a slot waits for is one for its task. -/
  call : ∀ f ∈ p.slots, ∀ t n, f.task? = some t → f.call? = some n →
    ∃ i, p.invocations[n]? = some i ∧ i.context = t.context
  /-- Every invocation is for a message that is known. -/
  invocation : ∀ i ∈ p.invocations, i.context.job ∈ known

variable {known known' : List JobId} {slot : Nat}

/-- A pool that starts knows nothing. -/
theorem sound_start (w : Worker η) (known : List JobId) : (Pool.start w).1.Sound known := by
  have ready : ∀ f ∈ (Pool.start w).1.slots, f = .ready := fun f hf => List.eq_of_mem_replicate hf
  constructor
  · intro f hf d h
    rw [ready f hf] at h
    cases h
  · intro f hf t h
    rw [ready f hf] at h
    cases h
  · intro f hf t n h
    rw [ready f hf] at h
    cases h
  · intro i hi
    cases hi

/-- Knowing more messages does no harm. -/
theorem Sound.mono (sound : p.Sound known) (sub : known ⊆ known') : p.Sound known' where
  delivery f hf d h := ⟨sub (sound.delivery f hf d h).1, (sound.delivery f hf d h).2⟩
  suits := sound.suits
  call := sound.call
  invocation i hi := sub (sound.invocation i hi)

/-- The context of a task is about the message of its delivery. -/
theorem Sound.job_eq (sound : p.Sound known) (hf : f ∈ p.slots) {t : Task}
    (h : f.task? = some t) : t.context.job = t.delivery.job := by
  rw [(sound.suits f hf t h).context]
  rfl

/-- A turn keeps a pool sound if the message that it gives to the slot is known and
comes from a queue of the pool. -/
theorem Sound.after (sound : p.Sound known) (found : p.slots[slot]? = some f)
    (turn : p.Turn f m f' calls counters)
    (given : ∀ d, f'.delivery? = some d → d.job ∈ known ∧ d.message.queue ∈ p.schedule.names) :
    (p.after slot f' calls counters).Sound known := by
  have hf : f ∈ p.slots := List.mem_of_getElem? found
  have suits : ∀ {t}, f'.task? = some t → p.Suits t := by
    intro t h
    rcases turn.suits h with before | suits
    · exact sound.suits f hf t before
    · exact suits
  constructor
  · intro g hg d h
    rcases List.mem_or_eq_of_mem_set hg with hg | rfl
    · exact sound.delivery g hg d h
    · exact given d h
  · intro g hg t h
    have good : p.Suits t := by
      rcases List.mem_or_eq_of_mem_set hg with hg | rfl
      · exact sound.suits g hg t h
      · exact suits h
    exact ⟨good.envelope, good.resolved, good.context⟩
  · intro g hg t n task waits
    rcases List.mem_or_eq_of_mem_set hg with hg | rfl
    · obtain ⟨i, hi, eq⟩ := sound.call g hg t n task waits
      obtain ⟨i', hi', eq'⟩ := turn.effect.context hi
      exact ⟨i', hi', eq'.trans eq⟩
    · cases turn.effect with
      | same idle =>
        rw [idle] at waits
        cases waits
      | begun t' stage job asks task' waits' =>
        rw [task] at task'
        rw [waits] at waits'
        cases task'
        cases waits'
        exact ⟨_, List.getElem?_concat_length, rfl⟩
      | ended t' call ending before waited idle =>
        rw [idle] at waits
        cases waits
  · intro i hi
    cases turn.effect with
    | same => exact sound.invocation i hi
    | begun t stage job asks =>
      rcases List.mem_append.mp hi with hi | hi
      · exact sound.invocation i hi
      · rw [List.mem_singleton] at hi
        subst hi
        show t.context.job ∈ known
        rw [sound.job_eq hf asks.task?]
        exact (sound.delivery f hf _ (Phase.delivery?_of_task? asks.task?)).1
    | ended t call ending =>
      obtain ⟨n, hn⟩ := List.mem_iff_getElem?.mp hi
      have old : n < p.invocations.length := by
        have := (List.getElem?_eq_some_iff.mp hn).1
        simpa [Pool.after] using this
      obtain ⟨i', hi', eq⟩ := turn.effect.context (List.getElem?_eq_getElem old)
      obtain rfl : i' = i := Option.some.inj (hi'.symm.trans hn)
      rw [eq]
      exact sound.invocation _ (List.getElem_mem old)

/-- Whether two pools differ in nothing but whether they stop. -/
structure Agrees (p p' : Pool η) : Prop where
  slots : p'.slots = p.slots
  invocations : p'.invocations = p.invocations
  codec : p'.codec = p.codec
  registry : p'.registry = p.registry
  settings : p'.settings = p.settings

theorem Agrees.sound {p' : Pool η} (agrees : p.Agrees p') (sound : p.Sound known) :
    p'.Sound known := by
  obtain ⟨slots, invocations, codec, registry, settings⟩ := agrees
  have schedule : p'.schedule = p.schedule := by rw [schedule, settings, schedule]
  constructor
  · intro f hf d h
    rw [schedule]
    exact sound.delivery f (slots ▸ hf) d h
  · intro f hf t h
    have suits := sound.suits f (slots ▸ hf) t h
    refine ⟨?_, ?_, ?_⟩
    · rw [codec, suits.envelope]
    · rw [registry]
      exact suits.resolved
    · rw [contextOf, settings]
      exact suits.context
  · rw [invocations, slots]
    exact sound.call
  · rw [invocations]
    exact sound.invocation

/-! ## Messages that a pool can handle -/

/-- Whether the pool can handle a message: it has an envelope, with a tag that has a
handler and a payload that fits. -/
def Handles (p : Pool η) (m : Message) : Prop :=
  ∃ v kind handler job, p.codec.decode m.envelope = .ok v ∧
    p.registry.resolve v.type = some (kind, handler) ∧ v.toJob kind = .ok job

/-- The payload of a message that the pool can handle fits. -/
theorem Suits.exists_job {t : Task} (suits : p.Suits t) (handles : p.Handles t.delivery.message) :
    ∃ job, t.envelope.toJob t.kind = .ok job := by
  obtain ⟨v, kind, handler, job, read, resolved, fits⟩ := handles
  obtain ⟨handler', resolved'⟩ := suits.resolved
  rw [suits.envelope] at read
  cases read
  rw [resolved'] at resolved
  cases resolved
  exact ⟨job, fits⟩

end Pool

end JobQueue
