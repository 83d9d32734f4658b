import JobQueue.Proofs.Site.Basic
import JobQueue.Proofs.Store.Queues

/-!
# Sound sites

`Site.Change` says what a step does to a site, in terms of a call of its store and
the turn of a slot.  `Site.Sound` is what every step keeps: no outages, a store with a
history, pools whose slots know what is true, and a list of all invocations.  The
store stays open (`Site.Run.isOpen`).
-/

namespace JobQueue

open History

/-- Whether a client asks for this, and not a slot. -/
def Request.IsOfClient : Request → Prop
  | enqueue .. | prune _ => True
  | _ => False

/-- How far a slot is with the answer to its pull. -/
def Phase.ofAnswer : Response → Phase
  | .dequeued (some d) => .holding d
  | _ => .idle

/-- A slot has the message that it was given. -/
theorem Phase.answer_eq_of_delivery? {answer : Response} {d : Delivery}
    (h : (ofAnswer answer).delivery? = some d) : answer = .dequeued (some d) := by
  unfold ofAnswer at h
  split at h <;> cases h
  rfl

/-- How far a slot is with the reply to its pull. -/
def Phase.ofReply : Except QueueError (Option Delivery) → Phase
  | .ok (some d) => .holding d
  | _ => .idle

theorem Phase.ofReply_ok (d : Option Delivery) :
    ofReply (.ok d) = ofAnswer (.dequeued d) := by
  cases d <;> rfl

/-- A slot that gets a reply to its pull holds the message that it is given. -/
theorem Pool.Turn.of_answered {η : Type} {p : Pool η} {f f' : Phase}
    {r : Except QueueError (Option Delivery)} {calls : List Invocation} {counters : Metrics}
    (turn : p.Turn f (.pull (.answered r)) f' calls counters) :
    f = .pulling ∧ f' = .ofReply r ∧ calls = p.invocations ∧ counters = p.metrics := by
  cases turn <;> exact ⟨rfl, rfl, rfl, rfl⟩

namespace Site

variable {η : Type} {s s' : Site η}

/-- The site after its store has answered a call. -/
def served (s : Site η) (q : Request) : Site η := s.called q (s.broker.served q)

/-- What a step does to a site. -/
inductive Change (s : Site η) : Site η → Prop where
  /-- There is another pool. -/
  | opened (w : Worker η) : Change s { s with pools := s.pools ++ [(Pool.start w).1] }
  /-- A pool stops, or has stopped. -/
  | tuned {i : Nat} {p p' : Pool η} (found : s.pools[i]? = some p) (agrees : p.Agrees p') :
    Change s (s.put i p')
  /-- The store answers a client. -/
  | client {q : Request} (fresh : q.IsFresh s.history) (ofClient : q.IsOfClient) :
    Change s (s.served q)
  /-- The store answers a slot that pulls. -/
  | pulled {i : Nat} {p : Pool η} (found : s.pools[i]? = some p) {slot : Nat}
    (phase : p.slots[slot]? = some .pulling) (draw : Nat → Nat) {lease : LeaseToken}
    (now : Instant) (fresh : lease ∉ leases s.history) {m : Move} {f : Phase}
    (turn : p.Turn .pulling m f p.invocations p.metrics)
    (answer : f = .ofAnswer
      (s.broker.store.perform (.dequeue (p.schedule.round draw) lease now)).answer) :
    Change s ((s.served (.dequeue (p.schedule.round draw) lease now)).put i
      (p.after slot f p.invocations p.metrics))
  /-- The store answers a slot that settles its message. -/
  | settled {i : Nat} {p : Pool η} (found : s.pools[i]? = some p) {slot : Nat} {d : Delivery}
    {outcome : Outcome} {v : Verdict} {isCounted : Bool}
    (phase : p.slots[slot]? = some (.settling d outcome v isCounted)) (now : Instant) {m : Move}
    {counters : Metrics}
    (turn : p.Turn (.settling d outcome v isCounted) m .ready p.invocations counters) :
    Change s ((s.served (.settle d v now)).put i (p.after slot .ready p.invocations counters))
  /-- A slot goes on without the store. -/
  | moved {i : Nat} {p : Pool η} (found : s.pools[i]? = some p) {slot : Nat} {f f' : Phase}
    {m : Move} {calls : List Invocation} {counters : Metrics} (phase : p.slots[slot]? = some f)
    (turn : p.Turn f m f' calls counters) (own : m.isOwn) :
    Change s (s.turned i p (p.after slot f' calls counters))

/-- Without outages every step is such a change. -/
theorem Step.change (quiet : s.broker.outages = []) (step : Step s s') : Change s s' := by
  cases step with
  | opened w => exact .opened w
  | enqueued id m now fresh =>
    rw [Broker.enqueue_of_quiet quiet]
    exact .client (q := .enqueue id m now) fresh trivial
  | pruned cutoff => exact .client (q := .prune cutoff) trivial trivial
  | @pulled i p p' b notices found slot draw lease now fresh h =>
    obtain ⟨stepped, rfl⟩ := Pool.step_of_pullFrom h
    rw [Broker.dequeue_of_quiet quiet] at stepped ⊢
    obtain ⟨f, phase, f', calls, counters, turn, rfl⟩ := Pool.turn_of_step stepped
    obtain ⟨rfl, rfl, rfl, rfl⟩ := turn.of_answered
    refine .pulled found phase draw now fresh turn ?_
    rw [Store.perform_dequeue]
    cases s.broker.store.dequeue (p.schedule.round draw) lease now with
    | ok r => exact Phase.ofReply_ok r.answer
    | error e => rfl
  | @settled i p p' b notices found slot d outcome v isCounted phase now h =>
    obtain ⟨stepped, rfl⟩ := Pool.step_of_settleWith phase h
    rw [Broker.settle_of_quiet quiet] at stepped ⊢
    obtain ⟨f, phase', f', calls, counters, turn, rfl⟩ := Pool.turn_of_step stepped
    rw [phase] at phase'
    cases phase'
    generalize e : Move.settle _ = m at turn
    cases turn with
    | settled _ _ _ _ r => exact .settled found phase now (.settled d outcome v isCounted r)
    | settleCrashed => cases e
  | moved found slot m own h =>
    obtain ⟨f, phase, f', calls, counters, turn, rfl⟩ := Pool.turn_of_step h
    exact .moved found phase turn own
  | stopping found => exact .tuned found ⟨rfl, rfl, rfl, rfl, rfl⟩
  | joined found h =>
    unfold Pool.join? at h
    split at h
    · cases h
      exact .tuned found ⟨rfl, rfl, rfl, rfl, rfl⟩
    · cases h
  | abandoned found => exact .tuned found ⟨rfl, rfl, rfl, rfl, rfl⟩

/-! ## Looking at slots and invocations -/

variable {i slot : Nat} {p p' : Pool η} {place : Place}

theorem getElem?_put (found : s.pools[i]? = some p) (j : Nat) :
    (s.put i p').pools[j]? = if j = i then some p' else s.pools[j]? := by
  have bound : i < s.pools.length := (List.getElem?_eq_some_iff.mp found).1
  unfold put
  rw [List.getElem?_set, if_pos bound]
  by_cases eq : j = i
  · rw [if_pos eq.symm, if_pos eq]
  · rw [if_neg (Ne.symm eq), if_neg eq]

/-- Only the slot that has its turn is in another phase. -/
theorem phase?_put (found : s.pools[i]? = some p) {f f' : Phase}
    (phase : p.slots[slot]? = some f) (calls : List Invocation) (counters : Metrics) :
    (s.put i (p.after slot f' calls counters)).phase? place =
      if place = (i, slot) then some f' else s.phase? place := by
  have bound : slot < p.slots.length := (List.getElem?_eq_some_iff.mp phase).1
  obtain ⟨j, k⟩ := place
  unfold phase?
  rw [getElem?_put found]
  by_cases eq : j = i
  · subst eq
    rw [if_pos rfl, found, Option.bind_some, Option.bind_some, Pool.after, List.getElem?_set,
      if_pos bound]
    by_cases eq : k = slot
    · rw [if_pos eq.symm, if_pos (by rw [eq])]
    · rw [if_neg (Ne.symm eq), if_neg (by simpa using eq)]
  · rw [if_neg eq, if_neg (by simp [eq])]

theorem invocation?_put (found : s.pools[i]? = some p) :
    (s.put i p').invocation? place =
      if place.1 = i then p'.invocations[place.2]? else s.invocation? place := by
  unfold invocation?
  rw [getElem?_put found]
  split
  · rfl
  · rfl

/-- Where a pool keeps its invocations, so does the site. -/
theorem invocation?_put_of_eq (found : s.pools[i]? = some p)
    (same : p'.invocations = p.invocations) :
    (s.put i p').invocation? place = s.invocation? place := by
  rw [invocation?_put found]
  split
  · next eq => rw [same, invocation?, eq, found, Option.bind_some]
  · rfl

/-- Where a pool keeps its slots, so does the site. -/
theorem phase?_put_of_eq (found : s.pools[i]? = some p) (same : p'.slots = p.slots) :
    (s.put i p').phase? place = s.phase? place := by
  unfold phase?
  rw [getElem?_put found]
  split
  · next eq => rw [eq, found, Option.bind_some, Option.bind_some, same]
  · rfl

theorem invocation?_at (found : s.pools[i]? = some p) (n : Nat) :
    s.invocation? (i, n) = p.invocations[n]? := by
  rw [invocation?, found, Option.bind_some]

theorem phase?_at (found : s.pools[i]? = some p) (slot : Nat) :
    s.phase? (i, slot) = p.slots[slot]? := by
  rw [phase?, found, Option.bind_some]

theorem newIn_of_length_eq (i : Nat) (same : p'.invocations.length = p.invocations.length) :
    newIn i p p' = [] := by
  rw [newIn, same, Nat.sub_self]
  rfl

theorem newIn_concat (i : Nat) {call : Invocation}
    (more : p'.invocations = p.invocations ++ [call]) :
    newIn i p p' = [(i, p.invocations.length)] := by
  rw [newIn, more, List.length_append, List.length_singleton, Nat.add_sub_cancel_left]
  rfl

/-! ## Soundness -/

/-- What holds of every site. -/
structure Sound (s : Site η) : Prop where
  /-- The broker has no outages. -/
  quiet : s.broker.outages = []
  /-- The store has the history. -/
  run : JobQueue.Run s.history s.broker.store
  /-- What the slots know is true. -/
  pools : ∀ p ∈ s.pools, p.Sound (ids s.history)
  /-- No invocation is listed twice. -/
  began_nodup : s.began.Nodup
  /-- All invocations are listed. -/
  mem_began : ∀ place, place ∈ s.began ↔ (s.invocation? place).isSome

namespace Sound

theorem of_mem (sound : s.Sound) (found : s.pools[i]? = some p) : p.Sound (ids s.history) :=
  sound.pools p (List.mem_of_getElem? found)

/-- A call of the store that brings nothing known keeps a site sound. -/
theorem served (sound : s.Sound) {q : Request} (fresh : q.IsFresh s.history) :
    (s.served q).Sound where
  quiet := sound.quiet
  run := sound.run.call q fresh
  pools p hp := (sound.pools p hp).mono fun id hid => by
    show id ∈ ids (s.history ++ _)
    rw [ids_append]
    exact List.mem_append_left _ hid
  began_nodup := sound.began_nodup
  mem_began := sound.mem_began

/-- A sound pool with the invocations of one in its place keeps a site sound. -/
theorem put (sound : s.Sound) (found : s.pools[i]? = some p) (sound' : p'.Sound (ids s.history))
    (same : p'.invocations = p.invocations) : (s.put i p').Sound where
  quiet := sound.quiet
  run := sound.run
  pools p hp := by
    rcases List.mem_or_eq_of_mem_set hp with hp | rfl
    · exact sound.pools p hp
    · exact sound'
  began_nodup := sound.began_nodup
  mem_began place := by
    rw [invocation?_put_of_eq found same]
    exact sound.mem_began place

end Sound

/-- What the store hands out is known and comes from a queue that was asked for. -/
theorem Sound.of_answer (sound : s.Sound) {queues : List String} {lease : LeaseToken}
    {now : Instant} {d : Delivery}
    (answer : (s.broker.store.perform (.dequeue queues lease now)).answer = .dequeued (some d)) :
    d.job ∈ ids s.history ∧ d.message.queue ∈ queues := by
  obtain ⟨_, _, t, r, eq, next, found, same⟩ :=
    Store.delivery?_exchange (Store.delivery?_of_dequeued answer)
  cases eq
  have ticket := sound.run.inStep.ticket_eq next found
  have job : d.job = t.job := by
    rw [same, ← Store.id_of_record? found]
    rfl
  have queue : d.message.queue = t.queue := by
    rw [same]
    exact congrArg Ticket.queue ticket
  rw [job, queue]
  exact ⟨sound.run.id_mem_of_record? found, (Store.isReady_of_next? next).1⟩

/-- An invocation that begins is listed, and one that ends stays listed. -/
theorem Sound.moved (sound : s.Sound) (found : s.pools[i]? = some p) {f f' : Phase} {m : Move}
    {calls : List Invocation} {counters : Metrics} (phase : p.slots[slot]? = some f)
    (turn : p.Turn f m f' calls counters) (own : m.isOwn) :
    (s.turned i p (p.after slot f' calls counters)).Sound where
  quiet := sound.quiet
  run := sound.run
  pools q hq := by
    rcases List.mem_or_eq_of_mem_set hq with hq | rfl
    · exact sound.pools q hq
    · refine (sound.of_mem found).after phase turn ?_
      intro d hd
      rw [turn.delivery?_eq own] at hd
      exact (sound.of_mem found).delivery f (List.mem_of_getElem? phase) d hd
  began_nodup := by
    show (s.began ++ newIn i p _).Nodup
    cases turn.effect with
    | same =>
      rw [newIn_of_length_eq i (p.after_length rfl), List.append_nil]
      exact sound.began_nodup
    | begun t stage job =>
      rw [newIn_concat i rfl]
      refine List.nodup_append.mpr ⟨sound.began_nodup, by simp, ?_⟩
      rintro a ha b hb rfl
      rw [List.mem_singleton] at hb
      rw [hb, sound.mem_began, invocation?_at found] at ha
      simp at ha
    | ended t call ending =>
      rw [newIn_of_length_eq i (p.after_length (List.length_modify _ _ _)), List.append_nil]
      exact sound.began_nodup
  mem_began place := by
    have old : place ∈ s.began ↔ (s.invocation? place).isSome := sound.mem_began place
    show place ∈ s.began ++ newIn i p _ ↔ ((s.put i _).invocation? place).isSome
    rw [List.mem_append, old, invocation?_put found]
    obtain ⟨j, n⟩ := place
    by_cases eq : j = i
    · subst eq
      rw [if_pos rfl, invocation?_at found]
      cases turn.effect with
      | same => simp [newIn_of_length_eq, Pool.after]
      | begun t stage job =>
        rw [newIn_concat j rfl]
        simp [Pool.after]
        omega
      | ended t call ending => simp [newIn_of_length_eq, Pool.after]
    · rw [if_neg eq]
      simp [newIn, Ne.symm eq]

/-- A pool that starts has no invocations. -/
theorem invocation?_opened (w : Worker η) :
    ({ s with pools := s.pools ++ [(Pool.start w).1] } : Site η).invocation? place =
      s.invocation? place := by
  unfold invocation?
  rw [List.getElem?_append]
  split
  · rfl
  · next beyond =>
    rw [List.getElem?_eq_none (Nat.le_of_not_lt beyond), Option.bind_none]
    cases place.1 - s.pools.length <;> rfl

/-- Every step keeps a site sound. -/
theorem Sound.step (sound : s.Sound) (step : Step s s') : s'.Sound := by
  cases step.change sound.quiet with
  | opened w =>
    refine ⟨sound.quiet, sound.run, ?_, sound.began_nodup, ?_⟩
    · intro p hp
      rcases List.mem_append.mp hp with hp | hp
      · exact sound.pools p hp
      · rw [List.mem_singleton] at hp
        rw [hp]
        exact Pool.sound_start w _
    · intro place
      rw [invocation?_opened]
      exact sound.mem_began place
  | tuned found agrees =>
    exact sound.put found (agrees.sound (sound.of_mem found)) agrees.invocations
  | client fresh ofClient => exact sound.served fresh
  | @pulled i p found slot phase draw lease now fresh m f turn answer =>
    have sound' := sound.served (q := .dequeue (p.schedule.round draw) lease now) fresh
    refine sound'.put found ((sound'.of_mem found).after phase turn ?_) rfl
    rw [answer]
    intro d hd
    obtain ⟨known, queue⟩ := sound.of_answer (Phase.answer_eq_of_delivery? hd)
    refine ⟨?_, (p.schedule.round_perm draw).mem_iff.mp queue⟩
    show d.job ∈ ids (s.history ++ _)
    rw [ids_append]
    exact List.mem_append_left _ known
  | @settled i p found slot d outcome v isCounted phase now m counters turn =>
    have sound' : (s.served (.settle d v now)).Sound := sound.served trivial
    refine sound'.put found ((sound'.of_mem found).after phase turn ?_) rfl
    intro d' hd'
    cases hd'
  | moved found phase turn own => exact sound.moved found phase turn own

theorem Run.sound (run : Run s) : s.Sound := by
  induction run with
  | start =>
    exact
      { quiet := rfl, run := .start, pools := nofun, began_nodup := .nil
        mem_began := fun place => by simp [invocation?] }
  | step run step ih => exact ih.step step

/-- A step does not close the store. -/
theorem Step.isOpen_eq (quiet : s.broker.outages = []) (step : Step s s') :
    s'.broker.store.isOpen = s.broker.store.isOpen := by
  cases step.change quiet with
  | @client q fresh ofClient =>
    refine Store.isOpen_perform ?_
    rintro rfl
    exact ofClient
  | pulled => exact Store.isOpen_perform nofun
  | settled => exact Store.isOpen_perform nofun
  | _ => rfl

theorem Run.isOpen (run : Run s) : s.broker.store.isOpen := by
  induction run with
  | start => rfl
  | step run step ih =>
    rw [step.isOpen_eq run.sound.quiet]
    exact ih

end Site

end JobQueue
