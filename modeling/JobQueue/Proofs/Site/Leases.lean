import JobQueue.Proofs.Site.Budget

/-!
# Slots have leases

Where nobody but the slots of pools pulls and settles, a slot that has a message is the
only one that has it, and has it under the lease in its record (`Site.Backed`).  Hence
the store accepts every verdict of a slot (`Site.Run.settle_eq`), whatever clients
enqueue and whoever prunes: a record under a lease is not outdated.

In contrast to the course of a message (`Site.Follows`), this needs nothing of what the
pools make of it.
-/

namespace JobQueue

open History

namespace Site

variable {η : Type} {s s' : Site η} {id : JobId} {r : Record}

/-- Whether a message is with nobody, or with one slot that has it under the lease in its
record. -/
inductive Backed (s : Site η) (id : JobId) (r : Record) : Prop where
  /-- It is with nobody. -/
  | free (held : s.HeldBy id none) : Backed s id r
  /-- It is with a slot. -/
  | leased {place : Place} {f : Phase} {d : Delivery} (held : s.HeldBy id (some (place, f)))
    (delivery : f.delivery? = some d) (active : r.status = .active)
    (lease : r.lease = some d.lease) : Backed s id r

namespace Backed

theorem of_same (backed : s.Backed id r)
    (phases : ∀ place f, f.Holds id → (s'.phase? place = some f ↔ s.phase? place = some f)) :
    s'.Backed id r := by
  cases backed with
  | free held => exact .free (held.of_iff phases)
  | leased held delivery active lease => exact .leased (held.of_iff phases) delivery active lease

variable {i slot : Nat} {p : Pool η} {f f' : Phase} {calls : List Invocation}
  {counters : Metrics}

/-- A message is where it was after the turn of a slot that has nothing to do with it. -/
theorem put_of_not_holds (backed : s.Backed id r) (found : s.pools[i]? = some p)
    (phase : p.slots[slot]? = some f) (before : ¬ f.Holds id) (after : ¬ f'.Holds id) :
    (s.put i (p.after slot f' calls counters)).Backed id r := by
  cases backed with
  | free held => exact .free (held.put_of_not_holds found phase before after)
  | leased held delivery active lease =>
    exact .leased (held.put_of_not_holds found phase before after) delivery active lease

/-- A message is with a slot that goes on with it. -/
theorem put_keeps (backed : s.Backed id r) (found : s.pools[i]? = some p)
    (phase : p.slots[slot]? = some f) (same : f'.delivery? = f.delivery?) :
    (s.put i (p.after slot f' calls counters)).Backed id r := by
  have holds_iff := Phase.holds_congr same id
  by_cases holds : f.Holds id
  · cases backed with
    | free held => exact absurd holds (held (i, slot) f (by rw [phase?_at found, phase]))
    | leased held delivery active lease =>
      cases held.eq_of_holds found phase holds
      exact .leased (held.put_keeps found phase (holds_iff.mpr holds)) (same.trans delivery)
        active lease
  · exact backed.put_of_not_holds found phase holds (mt holds_iff.mp holds)

/-- When a slot lets its message go, nobody has it. -/
theorem heldBy_none (backed : s.Backed id r) (found : s.pools[i]? = some p)
    (phase : p.slots[slot]? = some f) (holds : f.Holds id) (after : ¬ f'.Holds id) :
    (s.put i (p.after slot f' calls counters)).HeldBy id none := by
  cases backed with
  | free held => exact absurd holds (held (i, slot) f (by rw [phase?_at found, phase]))
  | leased held =>
    cases held.eq_of_holds found phase holds
    exact held.put_leaves found phase after

/-- A slot that pulls takes up a message that waits, under a lease in its record. -/
theorem pulled (backed : s.Backed id r) (knows : s.broker.store.Knows id r) (sound : s.Sound)
    (job : r.id = id) (found : s.pools[i]? = some p) (phase : p.slots[slot]? = some .pulling)
    (queues : List String) (lease : LeaseToken) (now : Instant)
    (answer : f = .ofAnswer (s.broker.store.perform (.dequeue queues lease now)).answer) :
    ∃ r', (s.broker.store.perform (.dequeue queues lease now)).store.Knows id r' ∧ r'.id = id ∧
      ((s.served (.dequeue queues lease now)).put i
        (p.after slot f p.invocations p.metrics)).Backed id r' := by
  obtain ⟨r', makes, knows'⟩ := knows.call (q := .dequeue queues lease now)
    sound.run.ids_records.1 (fun _ _ => nofun)
  have here : (s.served (.dequeue queues lease now)).Backed id r :=
    backed.of_same fun _ _ _ => .rfl
  have free : ¬ Phase.pulling.Holds id := Phase.not_holds_of_none rfl id
  cases makes with
  | same other =>
    refine ⟨r, knows', job, here.put_of_not_holds found phase free ?_⟩
    rw [answer]
    rintro ⟨d, hd, about⟩
    exact other (.leased d now)
      (Store.moment?_of_dequeued (Phase.answer_eq_of_delivery? hd)) about
  | leased ready answer' =>
    rw [answer'] at answer
    subst answer
    refine ⟨_, knows', job, ?_⟩
    have waits := Record.isWaiting_of_isDeliverable ready
    cases here with
    | free held => exact .leased (held.put_holds found phase ⟨_, rfl, job⟩) rfl rfl rfl
    | leased held delivery active =>
      rw [active] at waits
      cases waits

end Backed

/-- Whether all messages that were taken are with nobody or with slots that have them under
the leases in their records. -/
def AllBacked (s : Site η) : Prop :=
  ∀ id ∈ ids s.history, ∃ r, s.broker.store.Knows id r ∧ r.id = id ∧ s.Backed id r

/-- A call that takes no message leaves the identifiers as they are. -/
theorem ids_served {q : Request} (other : ∀ id m now, q ≠ .enqueue id m now) :
    ids (s.served q).history = ids s.history := by
  show ids (s.history ++ [_]) = _
  rw [ids_concat]
  cases new : (s.broker.store.exchange q).enqueued? with
  | none => exact List.append_nil _
  | some x => exact absurd (Store.enqueued?_exchange new) (other _ _ _)

/-- A client that enqueues or prunes leaves messages where they are. -/
theorem AllBacked.served (all : s.AllBacked) (sound : s.Sound) {q : Request}
    (fresh : q.IsFresh s.history) (ofClient : q.IsOfClient) : (s.served q).AllBacked := by
  intro id mem
  by_cases taken : id ∈ ids s.history
  · obtain ⟨r, knows, job, backed⟩ := all id taken
    have others : ∀ m now, q ≠ .enqueue id m now := by
      rintro m now rfl
      exact fresh taken
    obtain ⟨r', makes, knows'⟩ := knows.call sound.run.ids_records.1 others
    cases makes with
    | same => exact ⟨r, knows', job, backed.of_same fun _ _ _ => .rfl⟩
    | leased => cases ofClient
    | settled => cases ofClient
  · -- a message that is new is with nobody
    have nobody : s.HeldBy id none := by
      rintro ⟨i, slot⟩ f phase ⟨d, hd, rfl⟩
      obtain ⟨p, found, phase⟩ := Option.bind_eq_some_iff.mp phase
      exact taken ((sound.of_mem found).delivery f (List.mem_of_getElem? phase) d hd).1
    have free : (s.served q).HeldBy id none := nobody.of_iff fun _ _ _ => .rfl
    obtain ⟨⟨_, m, born⟩, new, rfl⟩ := List.mem_map.mp mem
    obtain ⟨r, life, knows⟩ := (sound.served fresh).run.life new
    exact ⟨r, knows, life.id_eq, .free free⟩

theorem AllBacked.change (all : s.AllBacked) (sound : s.Sound) (change : Change s s') :
    s'.AllBacked := by
  cases change with
  | opened w =>
    intro id mem
    obtain ⟨r, knows, job, backed⟩ := all id mem
    exact ⟨r, knows, job, backed.of_same fun _ _ holds => phase?_opened w holds⟩
  | tuned found agrees =>
    intro id mem
    obtain ⟨r, knows, job, backed⟩ := all id mem
    refine ⟨r, knows, job, backed.of_same fun place f _ => ?_⟩
    rw [phase?_put_of_eq found agrees.slots]
  | client fresh ofClient => exact all.served sound fresh ofClient
  | @pulled i p found slot phase draw lease now fresh m f turn answer =>
    intro id mem
    have taken : id ∈ ids s.history := by
      rw [← ids_served (s := s) (q := .dequeue (p.schedule.round draw) lease now)
        fun _ _ _ => nofun]
      exact mem
    obtain ⟨r, knows, job, backed⟩ := all id taken
    exact backed.pulled knows sound job found phase _ _ now answer
  | @settled i p found slot d outcome v isCounted phase now m counters turn =>
    intro id mem
    have taken : id ∈ ids s.history := by
      rw [← ids_served (s := s) (q := .settle d v now) fun _ _ _ => nofun]
      exact mem
    obtain ⟨r, knows, job, backed⟩ := all id taken
    obtain ⟨r', makes, knows'⟩ := knows.call (q := .settle d v now) sound.run.ids_records.1
      (fun _ _ => nofun)
    have here : (s.served (.settle d v now)).Backed id r := backed.of_same fun _ _ _ => .rfl
    have after : ¬ Phase.ready.Holds id := Phase.not_holds_of_none rfl id
    by_cases holds : (Phase.settling d outcome v isCounted).Holds id
    · refine ⟨r', knows', ?_, .free (here.heldBy_none found phase holds after)⟩
      cases makes with
      | same => exact job
      | settled => rw [Record.settle_id, job]
    · cases makes with
      | same => exact ⟨r, knows', job, here.put_of_not_holds found phase holds after⟩
      | settled about => exact absurd ⟨d, rfl, about⟩ holds
  | @moved i p found slot f f' m calls counters phase turn own =>
    intro id mem
    obtain ⟨r, knows, job, backed⟩ := all id mem
    have kept : (s.put i (p.after slot f' calls counters)).Backed id r :=
      backed.put_keeps found phase (turn.delivery?_eq own)
    exact ⟨r, knows, job, kept.of_same fun _ _ _ => .rfl⟩

theorem Run.allBacked (run : s.Run) : s.AllBacked := by
  induction run with
  | start => nofun
  | step run step ih => exact ih.change run.sound (step.change run.sound.quiet)

/-- The store accepts the verdict of a slot. -/
theorem Run.settle_eq (run : s.Run) {i slot : Nat} {p : Pool η} (found : s.pools[i]? = some p)
    {d : Delivery} {outcome : Outcome} {v : Verdict} {isCounted : Bool}
    (phase : p.slots[slot]? = some (.settling d outcome v isCounted)) (now : Instant) :
    ∃ r, s.broker.store.settle d v now = .ok
      { answer := (), store := s.broker.store.settled r v now
        event := some (v.event d.job now) } := by
  have known := ((run.sound.of_mem found).delivery _ (List.mem_of_getElem? phase) d rfl).1
  obtain ⟨r, knows, -, backed⟩ := run.allBacked d.job known
  cases backed with
  | free held => exact absurd ⟨d, rfl, rfl⟩ (held (i, slot) _ (by rw [phase?_at found, phase]))
  | leased held delivery active lease =>
    cases held.eq_of_holds found phase ⟨d, rfl, rfl⟩
    cases delivery
    refine ⟨r, Store.settle_of_held run.isOpen v now ?_ lease⟩
    rcases knows with record | ⟨-, ended⟩
    · exact record
    · rw [active] at ended
      cases ended

end Site

end JobQueue
