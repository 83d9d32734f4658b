import JobQueue.Proofs.Service.Basic

/-!
# Stops

A pool that is asked to stop pulls no more, except for slots that have looked before: such
a slot pulls once (`Service.Later.pulls`).  All slots finish what they have, and leave.

Whoever stops the pool learns how many slots had not left.  They may be counted while they
go on (`Service.Tally`); since no slot comes back, the number is never too low
(`Service.Tally.le`).  A message under a lease that a slot got is in the hands of a slot,
and that slot has not left.  So no more messages are left behind than slots
(`Service.Sound.length_stranded_le`), and when all slots had left, every message that the
pool pulled is over, waits for another attempt, or is with somebody else
(`Service.Sound.released`).
-/

namespace JobQueue

open History

/-- Whether a slot has looked whether the pool stops, and is about to pull. -/
def Phase.isPulling : Phase → Bool
  | pulling => true
  | _ => false

/-- Whether a slot has left the pool. -/
def Phase.hasLeft : Phase → Bool
  | gone => true
  | _ => false

/-- Whether a slot calls the broker for a message. -/
def Move.isPull : Move → Bool
  | pull _ => true
  | _ => false

namespace Pool

variable {η : Type} {p : Pool η} {f f' : Phase} {m : Move} {calls : List Invocation}
  {counters : Metrics}

/-- How often a slot pulled. -/
def pulls (deeds : List (Deed η)) (slot : Nat) : Nat :=
  deeds.countP fun x => x.slot = slot ∧ x.move.isPull

/-- In a pool that stops, only slots pull that are about to, and none is about to anew. -/
theorem Turn.isPull_of_stopping (turn : p.Turn f m f' calls counters) (stopping : p.isStopping) :
    m.isPull.toNat + f'.isPulling.toNat ≤ f.isPulling.toNat := by
  cases turn with
  | checked =>
    rw [if_pos stopping]
    exact Nat.le_refl 0
  | _ => exact Nat.le_refl _

/-- A slot that has left makes no more turns. -/
theorem Turn.isOver_eq_false (turn : p.Turn f m f' calls counters) : f.isOver = false := by
  cases turn <;> rfl

theorem isOver_eq_false_of_delivery? {d : Delivery} (has : f.delivery? = some d) :
    f.isOver = false := by
  cases f <;> first | rfl | cases has

theorem unfinished_eq (p : Pool η) : p.unfinished = p.slots.countP fun f => !f.isOver :=
  List.countP_eq_length_filter.symm

/-- Where no slot has crashed, those that are not finished have not left. -/
theorem unfinished_of_calm (calm : ∀ f ∈ p.slots, f.isCrashed = false) :
    p.unfinished = p.slots.countP fun f => !f.hasLeft := by
  rw [unfinished_eq]
  refine List.countP_congr fun f mem => ?_
  have alive := calm f mem
  cases f with
  | crashed => cases alive
  | _ => rfl

end Pool

namespace Service

variable {η : Type} {w : Worker η} {s s' : Service η} {slot k n : Nat} {f : Phase}

/-! ## Pulls after a stop -/

/-- Whether a slot is about to pull. -/
def isPulling (s : Service η) (slot : Nat) : Bool := s.pool.slots[slot]?.any Phase.isPulling

theorem Step.pulls (step : Step s s') (stopping : s.pool.isStopping) :
    s'.pool.isStopping ∧ ∃ new, s'.deeds = s.deeds ++ new ∧
      ∀ slot, Pool.pulls new slot + (s'.isPulling slot).toNat ≤ (s.isPulling slot).toNat := by
  cases step.change with
  | same slots deeds stays =>
    refine ⟨stays stopping, [], by rw [deeds, List.append_nil], fun slot => ?_⟩
    rw [isPulling, isPulling, slots, Pool.pulls, List.countP_nil, Nat.zero_add]
  | @turned slot f m f' calls counters found turn pool deeds =>
    rw [pool] at deeds ⊢
    refine ⟨stopping, _, deeds, fun other => ?_⟩
    rw [isPulling, isPulling, pool, Pool.pulls, List.countP_singleton]
    by_cases here : slot = other
    · subst here
      have few := turn.isPull_of_stopping stopping
      rw [Pool.after_self found, found]
      cases pulls : m.isPull <;> simpa [pulls] using few
    · rw [Pool.after_of_ne here, if_neg (by simp [here]), Nat.zero_add]

/-- After a stop a slot pulls at most once, and only if it was about to. -/
theorem Later.pulls (later : Later s s') (stopping : s.pool.isStopping) :
    s'.pool.isStopping ∧ ∃ new, s'.deeds = s.deeds ++ new ∧
      ∀ slot, Pool.pulls new slot + (s'.isPulling slot).toNat ≤ (s.isPulling slot).toNat := by
  induction later with
  | refl =>
    refine ⟨stopping, [], (List.append_nil _).symm, fun slot => ?_⟩
    rw [Pool.pulls, List.countP_nil, Nat.zero_add]
  | tail _ step ih =>
    obtain ⟨stopping, new, deeds, few⟩ := ih
    obtain ⟨stopping, more, deeds', few'⟩ := step.pulls stopping
    refine ⟨stopping, new ++ more, by rw [deeds', deeds, List.append_assoc], fun slot => ?_⟩
    have all : Pool.pulls (new ++ more) slot = Pool.pulls new slot + Pool.pulls more slot :=
      List.countP_append
    have few := few slot
    have few' := few' slot
    omega

/-! ## Slots that have not left -/

/-- The first so many slots of a pool have been looked at, one after the other and while
they went on, and so many of them had not left. -/
inductive Tally : Service η → Nat → Nat → Prop where
  /-- None has been looked at. -/
  | none (s : Service η) : Tally s 0 0
  /-- Something happens. -/
  | step {s s' : Service η} {k n : Nat} (tally : Tally s k n) (step : Step s s') : Tally s' k n
  /-- The next slot is looked at. -/
  | looked {s : Service η} {k n : Nat} {f : Phase} (tally : Tally s k n)
    (found : s.pool.slots[k]? = some f) : Tally s (k + 1) (n + (!f.isOver).toNat)

/-- What somebody who stops a pool may learn at a moment: how many slots had not left. -/
inductive Reports (s : Service η) : Nat → Prop where
  /-- All have left. -/
  | joined {r : Pool η × List Notice} (h : s.pool.join? = some r) : Reports s 0
  /-- Time is over. -/
  | abandoned : Reports s s.pool.abandon.1
  /-- Time is over, and they were counted one after the other. -/
  | tallied {n : Nat} (tally : Tally s s.pool.slots.length n) : Reports s n

/-- Slots may be counted at one moment. -/
theorem tally_take (s : Service η) (bound : k ≤ s.pool.slots.length) :
    Tally s k ((s.pool.slots.take k).countP fun f => !f.isOver) := by
  induction k with
  | zero => exact .none s
  | succ k ih =>
    have found := List.getElem?_eq_getElem (l := s.pool.slots) bound
    have next := (ih (Nat.le_of_succ_le bound)).looked found
    rw [List.take_add_one, found, List.countP_append, Option.toList_some, List.countP_singleton]
    cases gone : s.pool.slots[k].isOver <;> simpa [gone] using next

theorem Reports.tally (reports : s.Reports n) : Tally s s.pool.slots.length n := by
  have all := tally_take s (Nat.le_refl _)
  rw [List.take_length, ← Pool.unfinished_eq] at all
  cases reports with
  | joined h =>
    unfold Pool.join? at h
    split at h
    · next none => rwa [none] at all
    · cases h
  | abandoned => exact all
  | tallied tally => exact tally

/-- Slots that have left do not come back. -/
theorem Step.countP_le (step : Step s s') (k : Nat) :
    ((s'.pool.slots.take k).countP fun f => !f.isOver) ≤
      (s.pool.slots.take k).countP fun f => !f.isOver := by
  cases step.change with
  | same slots => rw [slots]
  | @turned slot f m f' calls counters found turn pool =>
    have slots : s'.pool.slots = s.pool.slots.set slot f' := by
      rw [pool]
      rfl
    rw [slots, List.take_set]
    by_cases inside : slot < (s.pool.slots.take k).length
    · have here : (s.pool.slots.take k)[slot] = f := by
        rw [List.getElem_take]
        exact (List.getElem?_eq_some_iff.mp found).2
      have counted : 0 < (s.pool.slots.take k).countP fun f => !f.isOver :=
        List.countP_pos_iff.mpr ⟨f, here ▸ List.getElem_mem inside, by
          rw [turn.isOver_eq_false]
          rfl⟩
      rw [List.countP_set inside, here, turn.isOver_eq_false, Bool.not_false, if_pos rfl]
      split <;> omega
    · rw [List.set_eq_of_length_le (Nat.le_of_not_lt inside)]

/-- Slots that have been looked at were counted unless they had left. -/
theorem Tally.le (tally : Tally s k n) :
    ((s.pool.slots.take k).countP fun f => !f.isOver) ≤ n ∧ n ≤ k := by
  induction tally with
  | none => exact ⟨Nat.le_refl 0, Nat.le_refl 0⟩
  | step _ step ih => exact ⟨Nat.le_trans (step.countP_le _) ih.1, ih.2⟩
  | @looked s k n f tally found ih =>
    rw [List.take_add_one, found, List.countP_append, Option.toList_some, List.countP_singleton]
    cases f.isOver <;> simp <;> omega

theorem Reports.le (reports : s.Reports n) :
    s.pool.unfinished ≤ n ∧ n ≤ s.pool.slots.length := by
  have le := reports.tally.le
  rw [List.take_length, ← Pool.unfinished_eq] at le
  exact le

/-! ## Messages that are left behind -/

/-- The records of messages that are under leases that slots of the pool got. -/
def stranded (s : Service η) : List Record :=
  s.broker.store.records.filter fun r => (Pool.pulled s.deeds).any fun d => r.lease = some d.lease

/-- What has become of a message that the pool pulled and let go. -/
inductive Released (s : Service η) (d : Delivery) : Prop where
  /-- It is forgotten, since it was over. -/
  | forgotten (forgot : Forgot s.history d.job)
  /-- It is over. -/
  | ended {r : Record} (found : s.broker.store.record? d.job = some r)
    (status : r.status.isTerminal)
  /-- It waits for another attempt. -/
  | waits {r : Record} {retryAt : Instant} (found : s.broker.store.record? d.job = some r)
    (status : r.status = .retrying retryAt)
  /-- Somebody else has pulled it since. -/
  | elsewhere {r : Record} {d' : Delivery} (found : s.broker.store.record? d.job = some r)
    (lease : r.lease = some d'.lease) (job : d'.job = d.job) (latest : IsLatest s.history d')
    (other : d' ∉ Pool.pulled s.deeds)

namespace Sound

/-- No more messages are left behind than slots. -/
theorem length_stranded_le (sound : s.Sound w) : s.stranded.length ≤ s.pool.unfinished := by
  have nodup : (s.stranded.map Record.id).Nodup :=
    sound.run.ids_records.1.sublist (List.filter_sublist.map _)
  have held : s.stranded.map Record.id ⊆
      (s.pool.slots.filterMap Phase.delivery?).map Delivery.job := by
    intro id mem
    obtain ⟨r, inside, rfl⟩ := List.mem_map.mp mem
    obtain ⟨mem, under⟩ := List.mem_filter.mp inside
    obtain ⟨d, pulled, lease⟩ := List.any_eq_true.mp under
    have lease := of_decide_eq_true lease
    have found := sound.run.record?_of_mem mem
    have same : r.delivery d.lease = d :=
      eq_of_lease_eq sound.run.leases_nodup (sound.run.delivery_mem found lease)
        (sound.given d pulled) rfl
    have slot := sound.exists_slot pulled found lease
    exact List.mem_map.mpr ⟨d, slot, congrArg Delivery.job same.symm⟩
  have le := (List.subperm_of_subset nodup held).length_le
  rw [List.length_map, List.length_map, List.length_filterMap_eq_countP] at le
  rw [Pool.unfinished_eq]
  refine Nat.le_trans le (List.countP_mono_left fun f _ has => ?_)
  obtain ⟨d, has⟩ := Option.isSome_iff_exists.mp has
  rw [Pool.isOver_eq_false_of_delivery? has]
  rfl

/-- When all slots have left, a message that the pool pulled is over, waits, or is with
somebody else. -/
theorem released (sound : s.Sound w) (left : s.pool.unfinished = 0) {d : Delivery}
    (pulled : d ∈ Pool.pulled s.deeds) : s.Released d := by
  have given := sound.given d pulled
  cases found : s.broker.store.record? d.job with
  | none =>
    exact .forgotten ((sound.run.record?_eq_none_iff (sound.run.job_mem_ids given)).mp found)
  | some r =>
    obtain ⟨m, born, -, life⟩ := sound.run.life_of_record? found
    have handed := mem_deliveriesOf.mpr given
    rw [deliveriesOf_eq] at handed
    rcases life.status_of_handed (by rintro none; simp [none] at handed) with
      active | ⟨retryAt, status⟩ | ended
    · obtain ⟨lease, held⟩ := Option.isSome_iff_exists.mp (life.lease_isSome_iff.mpr active)
      obtain ⟨⟨d', last, rfl⟩, -⟩ :=
        (life.lease_eq_iff (sound.run.leases_of_momentsOf_nodup _)).mp held
      rw [← deliveriesOf_eq] at last
      have job : d'.job = d.job :=
        of_decide_eq_true (List.mem_filter.mp (List.mem_of_getLast? last)).2
      refine .elsewhere found held job (by rwa [IsLatest, job]) fun own => ?_
      -- the slot that has it has not left
      obtain ⟨f, mem, has⟩ := List.mem_filterMap.mp (sound.exists_slot own found held)
      have left := List.countP_eq_zero.mp (s.pool.unfinished_eq ▸ left) f mem
      rw [Pool.isOver_eq_false_of_delivery? has] at left
      exact left rfl
    · exact .waits found status
    · exact .ended found ended

end Sound

/-! ## Graceful stops -/

/-- What a pool has done at a moment after it was asked to stop. -/
structure Graceful (w : Worker η) (stop s : Service η) : Prop where
  /-- Since then a slot has pulled at most once, and only if it was about to. -/
  pulls : ∃ new, s.deeds = stop.deeds ++ new ∧
    ∀ slot, Pool.pulls new slot ≤ (stop.isPulling slot).toNat
  /-- Of a message that it pulled, a slot has done all that there is to do, or it has it
  still and has told the broker nothing. -/
  handles : ∀ (before rest : List (Deed η)) (y : Deed η) (d : Delivery),
    s.deeds = before ++ y :: rest → y.pulled? = some d →
      (Pool.ruled (Pool.tenure y.slot rest) = [] ∧
          ∃ f, s.pool.slots[y.slot]? = some f ∧ f.delivery? = some d) ∨
        Settles w d (Account.of (Pool.tenure y.slot rest))
  /-- A slot that has a message settles it by itself, whatever its handler does. -/
  settles : ∀ (slot : Nat) (f : Phase) (d : Delivery), s.pool.slots[slot]? = some f →
    f.delivery? = some d →
      ∀ around : Surroundings, (around.ending = .timedOut → (w.limit? d).isSome) →
        ∃ s' own, Later s s' ∧ s'.deeds = s.deeds ++ own ∧
          (∀ x ∈ own, x.slot = slot ∧ (x.move.isOwn → around.Allows x.move)) ∧
            Pool.settled own = [d] ∧ s'.pool.slots[slot]? = some .ready
  /-- No slot has crashed, and each has settled what it pulled, except for what it has in
  its hands. -/
  settled : ∀ (slot : Nat) (f : Phase), s.pool.slots[slot]? = some f →
    f.isCrashed = false ∧
      Pool.pulled (s.deeds.filter (·.slot = slot)) =
        Pool.settled (s.deeds.filter (·.slot = slot)) ++ f.delivery?.toList
  /-- The store has accepted a verdict on what was settled. -/
  answered : ∀ d ∈ Pool.settled s.deeds, IsAnswered s.history d
  /-- When its time is over, a stop reports how many slots have not left. -/
  counts : s.pool.abandon.1 = s.pool.slots.countP fun f => !f.hasLeft
  /-- If so many slots had not left, no more messages are left behind; and if all had,
  none of those that the pool pulled is. -/
  reports : ∀ n, s.Reports n →
    n ≤ w.settings.concurrency.toNat ∧ s.stranded.length ≤ n ∧
      (n = 0 → ∀ d ∈ Pool.pulled s.deeds, s.Released d)

/-- However the slots of a pool take turns, whatever their handlers do, and whoever else
uses the broker as long as it stays open: a stop leaves no message behind unless a slot is
left behind with it. -/
theorem stops_gracefully {first stop s : Service η} (starts : first.Starts w)
    (before : Later first stop) (after : Later stop.stopped s) : Graceful w stop s := by
  have sound : s.Sound w := ((starts.sound.later before).step .stopping).later after
  have calm := sound.pool.isCrashed_of_calm sound.calm
  constructor
  · obtain ⟨-, new, deeds, few⟩ := after.pulls rfl
    exact ⟨new, deeds, fun slot => Nat.le_of_add_right_le (few slot)⟩
  · intro before rest y d cut pulled
    exact sound.pool.settles cut pulled
  · intro slot f d found has around limit
    exact sound.settles found has around limit
  · intro slot f found
    exact ⟨calm f (List.mem_of_getElem? found), sound.pulled_of_slot found⟩
  · exact sound.answered
  · exact Pool.unfinished_of_calm calm
  · intro n reports
    obtain ⟨left, bound⟩ := reports.le
    rw [sound.pool.length_slots] at bound
    refine ⟨bound, Nat.le_trans sound.length_stranded_le left, ?_⟩
    rintro rfl d pulled
    exact sound.released (Nat.le_zero.mp left) pulled

/-- A pool with two slots at a broker that has a message for it. -/
def exampleService : Service Unit where
  pool := (Pool.start Pool.exampleTwo).1
  broker := { store := (Store.perform {} (.enqueue ⟨"1"⟩ Pool.exampleDelivery.message .epoch)).store }
  history := [Store.exchange {} (.enqueue ⟨"1"⟩ Pool.exampleDelivery.message .epoch)]

/-- One of its slots has looked whether the pool stops. -/
def exampleStop : Service Unit :=
  exampleService.did 0 .check (exampleService.pool.put 0 .pulling)

theorem stops_gracefully_of_example :
    ∃ first stop s s' : Service Unit, first.Starts Pool.exampleTwo ∧ Later first stop ∧
      Later stop.stopped s ∧ Later stop.stopped s' ∧
      Graceful Pool.exampleTwo stop s ∧ s.Reports 1 ∧ s.stranded.length = 1 ∧
      Graceful Pool.exampleTwo stop s' ∧ s'.Reports 0 ∧ s'.stranded = [] ∧
      (Pool.pulled s'.deeds).map Delivery.job = [⟨"1"⟩] := by
  have starts : exampleService.Starts Pool.exampleTwo :=
    ⟨rfl, rfl, .call .start _ (by decide), rfl, rfl⟩
  have before : Later exampleService exampleStop := .single (.moved 0 .check rfl rfl)
  -- the other one looks after the stop, and leaves
  have after : Later exampleStop.stopped _ := .single (.moved 1 .check rfl rfl)
  have after := after.tail (.pulled 0 (fun _ => 0) ⟨"x"⟩ .epoch (by decide) rfl)
  have after := after.tail (.moved 0 .look rfl rfl)
  have after := after.tail (.moved 0 .raise rfl rfl)
  have after := after.tail (.moved 0 .call rfl rfl)
  have ended := after.tail (.moved 0 (.finish (.returned (.ok ())) .epoch) rfl rfl)
  have ended := ended.tail (.settled 0 rfl .epoch rfl)
  have ended := ended.tail (.moved 0 .check rfl rfl)
  exact ⟨_, _, _, _, starts, before, after, ended, stops_gracefully starts before after,
    .abandoned, rfl, stops_gracefully starts before ended, .joined rfl, rfl, rfl⟩

end Service

end JobQueue
