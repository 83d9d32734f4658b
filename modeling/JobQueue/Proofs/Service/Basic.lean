import JobQueue.Proofs.Pool.Concurrency
import JobQueue.Proofs.Pool.Verdicts
import JobQueue.Proofs.Site.Sound
import JobQueue.Proofs.Store.Held
import Mathlib.Logic.Relation

/-!
# A pool in service

A pool in service works for a broker that stays open.  A `Service` is the pool and its
broker, with what the slots did and the calls of the store so far.  Whoever else uses the
broker is only seen by calls, and these may be any calls but the one that closes it:
other pools pull and settle, clients enqueue, old records are forgotten.

The broker answers every call, so no slot crashes, and a slot has settled what it pulled
except for what it has in its hands (`Service.Sound.pulled_of_slot`).  What it has settled
is settled: there is a verdict under the lease (`Service.Sound.answered`).  A slot that has
a message gets to this end by itself (`Service.Sound.settles`).
-/

namespace JobQueue

open History

/-- A pool with the broker that it works for. -/
structure Service (η : Type) where
  /-- The pool. -/
  pool : Pool η
  /-- The broker. -/
  broker : Broker
  /-- What the slots of the pool did. -/
  deeds : List (Deed η) := []
  /-- The calls of the store. -/
  history : History

namespace Service

variable {η : Type}

/-- The service after a call of its store. -/
def called (s : Service η) (q : Request) (b : Broker) : Service η :=
  { s with broker := b, history := s.history ++ [s.broker.store.exchange q] }

/-- The service after a step of a slot. -/
def did (s : Service η) (slot : Nat) (m : Move) (p : Pool η) : Service η :=
  { s with pool := p, deeds := s.deeds ++ [⟨s.pool, slot, m, p⟩] }

/-- The service after the pool is asked to stop. -/
def stopped (s : Service η) : Service η := { s with pool := s.pool.requestStop.1 }

/-- Something happens to a pool in service, or to its broker. -/
inductive Step (s : Service η) : Service η → Prop where
  /-- A slot pulls. -/
  | pulled {p : Pool η} {b : Broker} {notices : List Notice} (slot : Nat) (draw : Nat → Nat)
    (lease : LeaseToken) (now : Instant) (fresh : lease ∉ leases s.history)
    (h : s.pool.pullFrom slot draw lease now s.broker = some (p, b, notices)) :
    Step s ((s.called (.dequeue (s.pool.schedule.round draw) lease now) b).did slot
      (.pull (s.broker.dequeue (s.pool.schedule.round draw) lease now).1) p)
  /-- A slot settles its message. -/
  | settled {p : Pool η} {b : Broker} {notices : List Notice} (slot : Nat) {d : Delivery}
    {outcome : Outcome} {v : Verdict} {isCounted : Bool}
    (phase : s.pool.slots[slot]? = some (.settling d outcome v isCounted)) (now : Instant)
    (h : s.pool.settleWith slot now s.broker = some (p, b, notices)) :
    Step s ((s.called (.settle d v now) b).did slot (.settle (s.broker.settle d v now).1) p)
  /-- A slot goes on without the broker. -/
  | moved {p : Pool η} {notices : List Notice} (slot : Nat) (m : Move) (own : m.isOwn)
    (h : s.pool.step slot m = some (p, notices)) : Step s (s.did slot m p)
  /-- The pool is asked to stop. -/
  | stopping : Step s s.stopped
  /-- A stop is over because all slots have left. -/
  | joined {p : Pool η} {notices : List Notice} (h : s.pool.join? = some (p, notices)) :
    Step s { s with pool := p }
  /-- A stop is over because its time is. -/
  | abandoned : Step s { s with pool := s.pool.abandon.2.1 }
  /-- Somebody else calls the store. -/
  | others (q : Request) (fresh : q.IsFresh s.history) (stays : q ≠ .close) :
    Step s (s.called q (s.broker.served q))

/-- Whether a service comes about from another one, in any number of steps. -/
abbrev Later : Service η → Service η → Prop := Relation.ReflTransGen Step

/-- Whether a pool starts to work for an open broker without outages, whoever used the
broker before. -/
structure Starts (w : Worker η) (s : Service η) : Prop where
  pool : s.pool = (Pool.start w).1
  deeds : s.deeds = []
  run : Run s.history s.broker.store
  isOpen : s.broker.store.isOpen
  quiet : s.broker.outages = []

end Service

/-! ## Calls that crash nobody -/

/-- Whether a slot makes a move because a call of the broker crashes it. -/
def Move.crashes : Move → Bool
  | pull .crashed | settle .crashed => true
  | _ => false

theorem Move.crashes_of_isOwn {m : Move} (own : m.isOwn) : m.crashes = false := by
  cases m with
  | pull | settle => cases own
  | _ => rfl

namespace Pool

variable {η : Type} {w : Worker η} {deeds : List (Deed η)} {p : Pool η} {slot : Nat}
  {f f' : Phase} {m : Move} {calls : List Invocation} {counters : Metrics}

theorem Turn.isCrashed_of_calm (turn : p.Turn f m f' calls counters) (calm : m.crashes = false) :
    f'.isCrashed = false := by
  cases turn with
  | checked => split <;> rfl
  | pullCrashed | settleCrashed => cases calm
  | _ => rfl

/-- Where no call crashes a slot, none has crashed. -/
theorem Run.isCrashed_of_calm (run : Run w deeds p) (calm : ∀ x ∈ deeds, x.move.crashes = false) :
    ∀ f ∈ p.slots, f.isCrashed = false := by
  induction run using Run.induction with
  | start =>
    intro f mem
    rw [eq_ready_of_mem_start mem]
    rfl
  | turned run found turn later ih =>
    intro f mem
    rcases List.mem_or_eq_of_mem_set mem with old | rfl
    · exact ih (fun x hx => calm x (List.mem_append_left _ hx)) f old
    · exact turn.isCrashed_of_calm (calm _ (List.mem_append_right _ List.mem_cons_self))
  | tuned isStopping isOver run later ih => exact ih calm

/-- Where no call crashes a slot, the broker has replied to all that slots told it. -/
theorem settled_of_calm (calm : ∀ x ∈ deeds, x.move.crashes = false) :
    settled deeds = (ruled deeds).map Ruling.delivery := by
  rw [settled, ruled, List.map_filterMap]
  refine List.filterMap_congr fun x mem => ?_
  have calm := calm x mem
  unfold Deed.settled? Deed.ruling?
  cases move : x.move with
  | settle reply =>
    cases reply with
    | answered => rfl
    | crashed =>
      rw [move] at calm
      cases calm
  | _ => rfl

end Pool

/-- A slot pulls what the store hands out. -/
theorem Store.pulled?_eq {η : Type} (s : Store) (queues : List String) (lease : LeaseToken)
    (now : Instant) (p p' : Pool η) (slot : Nat) :
    Deed.pulled? ⟨p, slot, .pull (.answered ((s.dequeue queues lease now).map Step.answer)), p'⟩ =
      (s.exchange (.dequeue queues lease now)).delivery? := by
  rw [exchange, perform_dequeue]
  cases s.dequeue queues lease now <;> rfl

namespace Service

variable {η : Type} {w : Worker η} {s s' : Service η} {slot : Nat} {f : Phase}

/-! ## Steps of slots -/

/-- What a step does to the pool. -/
inductive Change (s s' : Service η) : Prop where
  /-- A slot has its turn. -/
  | turned {slot : Nat} {f : Phase} {m : Move} {f' : Phase} {calls : List Invocation}
    {counters : Metrics} (found : s.pool.slots[slot]? = some f)
    (turn : s.pool.Turn f m f' calls counters)
    (pool : s'.pool = s.pool.after slot f' calls counters)
    (deeds : s'.deeds = s.deeds ++ [⟨s.pool, slot, m, s'.pool⟩]) : Change s s'
  /-- All slots stay where they are. -/
  | same (slots : s'.pool.slots = s.pool.slots) (deeds : s'.deeds = s.deeds)
    (stopping : s.pool.isStopping → s'.pool.isStopping) : Change s s'

theorem change_of_step {m : Move} {p : Pool η} {notices : List Notice}
    (h : s.pool.step slot m = some (p, notices)) (pool : s'.pool = p)
    (deeds : s'.deeds = s.deeds ++ [⟨s.pool, slot, m, p⟩]) : Change s s' := by
  obtain ⟨f, found, f', calls, counters, turn, rfl⟩ := Pool.turn_of_step h
  exact .turned found turn pool (pool ▸ deeds)

theorem Step.change (step : Step s s') : Change s s' := by
  cases step with
  | pulled slot draw lease now fresh h =>
    exact change_of_step (Pool.step_of_pullFrom h).1 rfl rfl
  | settled slot phase now h =>
    exact change_of_step (Pool.step_of_settleWith phase h).1 rfl rfl
  | moved slot m own h => exact change_of_step h rfl rfl
  | stopping => exact .same rfl rfl fun _ => rfl
  | joined h =>
    unfold Pool.join? at h
    split at h <;> cases h
    exact .same rfl rfl id
  | abandoned => exact .same rfl rfl id
  | others => exact .same rfl rfl id

/-! ## What is true of a pool in service -/

/-- What is known of a pool in service. -/
structure Sound (w : Worker η) (s : Service η) : Prop where
  /-- The pool is one that has done what is written down. -/
  pool : Pool.Run w s.deeds s.pool
  /-- The store is one that has been called so. -/
  run : Run s.history s.broker.store
  isOpen : s.broker.store.isOpen
  quiet : s.broker.outages = []
  /-- No call crashed a slot. -/
  calm : ∀ x ∈ s.deeds, x.move.crashes = false
  /-- What slots pulled was handed out. -/
  given : ∀ d ∈ Pool.pulled s.deeds, d ∈ deliveries s.history
  /-- There is a verdict on what slots settled. -/
  answered : ∀ d ∈ Pool.settled s.deeds, IsAnswered s.history d

theorem Starts.sound (starts : s.Starts w) : s.Sound w where
  pool := by
    rw [starts.pool, starts.deeds]
    exact .start
  run := starts.run
  isOpen := starts.isOpen
  quiet := starts.quiet
  calm x mem := by simp [starts.deeds] at mem
  given d mem := by simp [starts.deeds, Pool.pulled] at mem
  answered d mem := by simp [starts.deeds, Pool.settled] at mem

namespace Sound

/-- A call of the store does no harm. -/
theorem called (sound : s.Sound w) {q : Request} (fresh : q.IsFresh s.history)
    (stays : q ≠ .close) : (s.called q (s.broker.served q)).Sound w where
  pool := sound.pool
  run := sound.run.call q fresh
  isOpen := (Store.isOpen_perform stays).trans sound.isOpen
  quiet := sound.quiet
  calm := sound.calm
  given d mem := mem_deliveries_append (sound.given d mem) _
  answered d mem := (sound.answered d mem).append _

/-- A step of a slot does no harm, given what it pulls and what it settles. -/
theorem did (sound : s.Sound w) {m : Move} {p : Pool η} {notices : List Notice}
    (h : s.pool.step slot m = some (p, notices)) (calm : m.crashes = false)
    (given : ∀ d, Deed.pulled? ⟨s.pool, slot, m, p⟩ = some d → d ∈ deliveries s.history)
    (answered : ∀ d, Deed.settled? ⟨s.pool, slot, m, p⟩ = some d → IsAnswered s.history d) :
    (s.did slot m p).Sound w where
  pool := sound.pool.moved slot m h
  run := sound.run
  isOpen := sound.isOpen
  quiet := sound.quiet
  calm x mem := by
    rcases List.mem_append.mp mem with mem | mem
    · exact sound.calm x mem
    · cases List.mem_singleton.mp mem
      exact calm
  given d mem := by
    obtain ⟨x, mem, pulled⟩ := List.mem_filterMap.mp mem
    rcases List.mem_append.mp mem with mem | mem
    · exact sound.given d (List.mem_filterMap.mpr ⟨x, mem, pulled⟩)
    · cases List.mem_singleton.mp mem
      exact given d pulled
  answered d mem := by
    obtain ⟨x, mem, settled⟩ := List.mem_filterMap.mp mem
    rcases List.mem_append.mp mem with mem | mem
    · exact sound.answered d (List.mem_filterMap.mpr ⟨x, mem, settled⟩)
    · cases List.mem_singleton.mp mem
      exact answered d settled

/-- What a slot has in its hands was handed out. -/
theorem mem_deliveries (sound : s.Sound w) (found : s.pool.slots[slot]? = some f) {d : Delivery}
    (has : f.delivery? = some d) : d ∈ deliveries s.history :=
  sound.given d (sound.pool.mem_pulled found has)

theorem step (sound : s.Sound w) (step : Step s s') : s'.Sound w := by
  cases step with
  | pulled slot draw lease now fresh h =>
    obtain ⟨stepped, rfl⟩ := Pool.step_of_pullFrom h
    rw [Broker.dequeue_of_quiet sound.quiet] at stepped ⊢
    refine (sound.called (q := .dequeue _ lease now) fresh nofun).did stepped rfl ?_ ?_
    · intro d pulled
      have pulled : Deed.pulled? ⟨s.pool, slot, _, _⟩ = some d := pulled
      rw [Store.pulled?_eq] at pulled
      exact mem_deliveries_concat.mpr (.inr pulled)
    · intro d settled
      cases settled
  | @settled p b notices slot d outcome v isCounted phase now h =>
    obtain ⟨stepped, rfl⟩ := Pool.step_of_settleWith phase h
    rw [Broker.settle_of_quiet sound.quiet] at stepped ⊢
    refine (sound.called (q := .settle d v now) trivial nofun).did stepped rfl ?_ ?_
    · intro d pulled
      cases pulled
    · intro d' settled
      obtain ⟨ruling, ruled, rfl⟩ := Option.map_eq_some_iff.mp settled
      obtain ⟨f, old, ruled⟩ := Option.bind_eq_some_iff.mp ruled
      cases phase.symm.trans old
      cases ruled
      exact sound.run.isAnswered_settle sound.isOpen (sound.mem_deliveries phase rfl) v now
  | moved slot m own h =>
    refine sound.did h (Move.crashes_of_isOwn own) ?_ ?_
    · intro d pulled
      cases m with
      | pull => cases own
      | _ => cases pulled
    · intro d settled
      cases m with
      | settle => cases own
      | _ => cases settled
  | stopping => exact { sound with pool := sound.pool.stopping }
  | joined h => exact { sound with pool := sound.pool.joined h }
  | abandoned => exact { sound with pool := sound.pool.abandoned }
  | others q fresh stays => exact sound.called fresh stays

theorem later (sound : s.Sound w) (later : Later s s') : s'.Sound w := by
  induction later with
  | refl => exact sound
  | tail _ step ih => exact ih.step step

/-- A slot has settled what it pulled, in this order, except for what it has in its
hands. -/
theorem pulled_of_slot (sound : s.Sound w) (found : s.pool.slots[slot]? = some f) :
    Pool.pulled (s.deeds.filter (·.slot = slot)) =
      Pool.settled (s.deeds.filter (·.slot = slot)) ++ f.delivery?.toList := by
  rw [Pool.settled_of_calm fun x mem => sound.calm x (List.mem_of_mem_filter mem)]
  exact sound.pool.pulled_of_slot found

/-- A message under the lease of a delivery that the pool pulled is in the hands of a slot. -/
theorem exists_slot (sound : s.Sound w) {d : Delivery} (pulled : d ∈ Pool.pulled s.deeds)
    {id : JobId} {r : Record} (found : s.broker.store.record? id = some r)
    (held : r.lease = some d.lease) : d ∈ s.pool.slots.filterMap Phase.delivery? := by
  have unsettled : d ∉ Pool.settled s.deeds := fun settled =>
    sound.run.lease_ne_of_isAnswered (sound.given d pulled) (sound.answered d settled) found held
  rw [Pool.settled_of_calm sound.calm] at unsettled
  exact (List.mem_append.mp (sound.pool.pulled_perm.mem_iff.mp pulled)).resolve_left unsettled

/-! ## Slots get to the end -/

/-- A slot that is about to settle its message can do so. -/
theorem exists_settled (sound : s.Sound w) {d : Delivery} {outcome : Outcome} {v : Verdict}
    {isCounted : Bool} (found : s.pool.slots[slot]? = some (.settling d outcome v isCounted))
    (now : Instant) :
    ∃ s' x, Step s s' ∧ s'.deeds = s.deeds ++ [x] ∧ x.slot = slot ∧ x.move.isOwn = false ∧
      x.settled? = some d ∧ s'.pool.slots[slot]? = some .ready := by
  have bound := (List.getElem?_eq_some_iff.mp found).1
  have reply : (s.broker.settle d v now).1 =
      .answered ((s.broker.store.settle d v now).map Store.Step.answer) := by
    rw [Broker.settle_of_quiet sound.quiet]
  have h : s.pool.settleWith slot now s.broker = some
      ((s.pool.put slot .ready).leave isCounted, (s.broker.settle d v now).2,
        Pool.settledNotices outcome ((s.broker.store.settle d v now).map Store.Step.answer)) := by
    simp only [Pool.settleWith, found, reply, Pool.step, Option.map_some]
  refine ⟨_, ⟨s.pool, slot, _, _⟩, .settled slot found now h, rfl, rfl, rfl, ?_, ?_⟩
  · rw [Deed.settled?, reply]
    simp [Deed.ruling?, Deed.old?, found, Phase.ruling?]
  · show ((s.pool.put slot .ready).leave isCounted).slots[slot]? = _
    rw [Pool.leave_eq]
    exact List.getElem?_set_self bound

/-- A slot that has a message settles it by itself, whatever its handler does; only a
handler without a limit is not cut off. -/
theorem settles (sound : s.Sound w) (found : s.pool.slots[slot]? = some f) {d : Delivery}
    (has : f.delivery? = some d) (around : Surroundings)
    (limit : around.ending = .timedOut → (w.limit? d).isSome) :
    ∃ s' own, Later s s' ∧ s'.deeds = s.deeds ++ own ∧
      (∀ x ∈ own, x.slot = slot ∧ (x.move.isOwn → around.Allows x.move)) ∧
        Pool.settled own = [d] ∧ s'.pool.slots[slot]? = some .ready := by
  induction left : f.left using Nat.strong_induction_on generalizing f s with
  | _ n ih =>
    by_cases settling : ∃ d outcome v isCounted, f = .settling d outcome v isCounted
    · obtain ⟨d', outcome, v, isCounted, rfl⟩ := settling
      cases has
      obtain ⟨s', x, step, deeds, own, broker, settled, ready⟩ :=
        sound.exists_settled found around.now
      refine ⟨s', [x], .single step, deeds, ?_, by simp [Pool.settled, settled], ready⟩
      intro y mem
      cases List.mem_singleton.mp mem
      exact ⟨own, fun isOwn => absurd (broker.symm.trans isOwn) Bool.false_ne_true⟩
    · obtain ⟨m, p, notices, allowed, h⟩ := Pool.exists_step around found has (by
        rintro t call rfl cut
        cases has
        have suits := (sound.pool.knows _ (List.mem_of_getElem? found)).1
        rw [sound.pool.context_eq suits]
        exact limit cut)
      obtain ⟨f₀, found₀, f', calls, counters, turn, rfl⟩ := Pool.turn_of_step h
      cases found.symm.trans found₀
      have own : m.isOwn := by
        cases turn with
        | settled | settleCrashed => exact absurd ⟨_, _, _, _, rfl⟩ settling
        | pulled | nothing | failed | pullCrashed => cases allowed
        | _ => rfl
      have step := Step.moved slot m own h
      obtain ⟨s', rest, later, deeds, mine, settled, ready⟩ :=
        ih _ (left ▸ turn.left_lt has) (sound.step step) (Pool.after_self found)
          ((turn.delivery?_eq own).trans has) rfl
      refine ⟨s', ⟨s.pool, slot, m, s.pool.after slot f' calls counters⟩ :: rest,
        .head step later, ?_, ?_, ?_, ready⟩
      · rw [deeds]
        exact List.append_assoc ..
      · intro x mem
        rcases List.mem_cons.mp mem with rfl | mem
        · exact ⟨rfl, fun _ => allowed⟩
        · exact mine x mem
      · have none : Deed.settled? ⟨s.pool, slot, m, s.pool.after slot f' calls counters⟩ = none := by
          cases m with
          | settle => cases own
          | _ => rfl
        rw [Pool.settled, List.filterMap_cons_none none]
        exact settled

end Sound

end Service

end JobQueue
