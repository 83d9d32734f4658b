import JobQueue.Proofs.Pool.Accounts
import JobQueue.Proofs.Site.Leases
import JobQueue.Proofs.Site.Shared

/-!
# Counters and events

A pool that is alone with its broker pulls all messages that are handed out, and the
store accepts all its verdicts (`Site.Run.settle_eq`).  So what its slots did is what
the history of the store says (`Site.Logs`, `Site.Run.alone`), and that is what the
broker told (`Site.Shared.told_eq`, `Run.countP_events`).  The counters of the pool count
what its slots did (`Pool.Run.balanced`); hence they agree with the events.
-/

namespace JobQueue

open History

theorem Verdict.name_event (v : Verdict) (id : JobId) (now : Instant) :
    (v.event id now).name = v.tells := by
  cases v <;> rfl

/-! ## Events of a history -/

/-- What a call tells besides what was enqueued: that it hands out a message, or which
verdict it accepts. -/
theorem Store.countP_exchange (s : Store) (q : Request) (name : String)
    (other : name ≠ "enqueued") :
    (s.exchange q).event.toList.countP (·.name = name) =
      (if name = "leased" then (s.exchange q).delivery?.toList.length else 0) +
        (s.exchange q).verdict?.toList.countP (·.2.tells = name) := by
  have exchange : s.exchange q = ⟨q, (s.perform q).answer, (s.perform q).event⟩ := rfl
  have effect := s.perform_effect q
  rw [exchange]
  generalize s.perform q = step at effect ⊢
  cases effect with
  | refused => cases q <;> simp [Exchange.delivery?, Exchange.verdict?]
  | enqueued => simp [Exchange.delivery?, Exchange.verdict?, Event.name, Ne.symm other]
  | nothing => simp [Exchange.delivery?, Exchange.verdict?]
  | leased => simp [Exchange.delivery?, Exchange.verdict?, Event.name, List.countP_cons, eq_comm]
  | settled => simp [Exchange.delivery?, Exchange.verdict?, Verdict.name_event]
  | pruned => simp [Exchange.delivery?, Exchange.verdict?]
  | closed => simp [Exchange.delivery?, Exchange.verdict?]

/-- Besides what was enqueued, the events tell of each message that was handed out, and of
each verdict that was accepted. -/
theorem Run.countP_events {h : History} {s : Store} (run : Run h s) {name : String}
    (other : name ≠ "enqueued") :
    (events h).countP (·.name = name) =
      (if name = "leased" then (deliveries h).length else 0) +
        (verdicts h).countP (·.2.tells = name) := by
  induction run with
  | start => simp [events, deliveries, verdicts]
  | @call h s run q fresh ih =>
    have here := s.countP_exchange q name other
    rw [events_concat, deliveries_concat, verdicts_concat, List.countP_append, List.countP_append,
      List.length_append, ih, here]
    split <;> omega

namespace Site

variable {η : Type} {s s' : Site η} {i slot : Nat} {p p' : Pool η}
  {deeds : List (Deed η)}

/-- How often the broker has told an event with a name. -/
def told (s : Site η) (name : String) : Nat := s.broker.told.countP (·.name = name)

/-- The broker tells what is told of the calls of its store. -/
theorem Run.told_eq (run : s.Run) : s.broker.told = (events s.history).reverse :=
  run.shared.told_eq

/-! ## A pool on its own -/

/-- Whether what the slots of a pool did is what the history of the store says. -/
structure Logs (deeds : List (Deed η)) (h : History) : Prop where
  /-- They pulled what was handed out. -/
  pulled : Pool.pulled deeds = deliveries h
  /-- Their verdicts are those that were accepted. -/
  ruled : (Pool.ruled deeds).map (fun r => (r.delivery, r.verdict)) = verdicts h

namespace Logs

variable {h : History} {e : Exchange} {x : Deed η}

/-- A call of somebody else. -/
theorem call (logs : Logs deeds h) (delivery : e.delivery? = none) (verdict : e.verdict? = none) :
    Logs deeds (h ++ [e]) where
  pulled := by rw [deliveries_concat, delivery, logs.pulled, Option.toList_none, List.append_nil]
  ruled := by rw [verdicts_concat, verdict, logs.ruled, Option.toList_none, List.append_nil]

/-- A slot goes on by itself. -/
theorem deed (logs : Logs deeds h) (pulled : x.pulled? = none) (ruling : x.ruling? = none) :
    Logs (deeds ++ [x]) h where
  pulled := by simp [← logs.pulled, Pool.pulled, pulled]
  ruled := by simp [← logs.ruled, Pool.ruled, ruling]

/-- A slot calls the broker. -/
theorem both (logs : Logs deeds h) (pulled : x.pulled? = e.delivery?)
    (ruling : x.ruling?.map (fun r => (r.delivery, r.verdict)) = e.verdict?) :
    Logs (deeds ++ [x]) (h ++ [e]) where
  pulled := by
    rw [deliveries_concat, ← logs.pulled, ← pulled]
    cases new : x.pulled? <;> simp [Pool.pulled, new]
  ruled := by
    rw [verdicts_concat, ← logs.ruled, ← ruling]
    cases new : x.ruling? <;> simp [Pool.ruled, new]

end Logs

/-- Whether all that the history of the store says was done by the slots of one pool, if
there is just one. -/
structure Alone (s : Site η) : Prop where
  /-- Without pools nothing was done. -/
  nobody : s.pools = [] → Logs (η := η) [] s.history
  /-- The slots of a pool on its own did all of it. -/
  one : ∀ p, s.pools = [p] → ∃ w deeds, Pool.Run w deeds p ∧ Logs deeds s.history

namespace Alone

/-- It stays so if a pool goes on. -/
theorem set (alone : s.Alone) (found : s.pools[i]? = some p)
    (pools : s'.pools = s.pools.set i p')
    (goes : ∀ {w deeds}, Pool.Run w deeds p → Logs deeds s.history →
      ∃ deeds', Pool.Run w deeds' p' ∧ Logs deeds' s'.history) : s'.Alone where
  nobody empty := by
    rw [pools, List.set_eq_nil_iff] at empty
    rw [empty] at found
    cases found
  one q only := by
    rw [pools] at only
    obtain ⟨p₀, only₀⟩ := List.length_eq_one_iff.mp
      ((List.length_set (a := p')).symm.trans (congrArg List.length only))
    rw [only₀] at found only
    cases i with
    | succ i => cases found
    | zero =>
      cases found
      cases only
      obtain ⟨w, deeds, run, logs⟩ := alone.one _ only₀
      obtain ⟨deeds', run', logs'⟩ := goes run logs
      exact ⟨w, deeds', run', logs'⟩

/-- It stays so if somebody else calls the store. -/
theorem call {e : Exchange} (alone : s.Alone) (pools : s'.pools = s.pools)
    (history : s'.history = s.history ++ [e]) (delivery : e.delivery? = none)
    (verdict : e.verdict? = none) : s'.Alone where
  nobody empty := by
    rw [pools] at empty
    rw [history]
    exact (alone.nobody empty).call delivery verdict
  one q only := by
    rw [pools] at only
    obtain ⟨w, deeds, run, logs⟩ := alone.one q only
    rw [history]
    exact ⟨w, deeds, run, logs.call delivery verdict⟩

end Alone

theorem Step.alone (step : Step s s') (run : s.Run) (alone : s.Alone) : s'.Alone := by
  cases step with
  | opened w =>
    refine ⟨fun empty => absurd empty (by simp), fun q only => ?_⟩
    have only : s.pools ++ [(Pool.start w).1] = [] ++ [q] := only
    obtain ⟨empty, same⟩ := List.append_inj' only rfl
    cases same
    exact ⟨w, [], .start, alone.nobody empty⟩
  | enqueued id m now => exact alone.call rfl rfl rfl rfl
  | pruned cutoff => exact alone.call rfl rfl rfl rfl
  | @pulled i p p' b notices found slot draw lease now fresh h =>
    refine alone.set found rfl fun own logs => ?_
    obtain ⟨stepped, rfl⟩ := Pool.step_of_pullFrom h
    refine ⟨_, own.moved slot _ stepped, logs.both ?_ rfl⟩
    rw [Broker.dequeue_of_quiet run.sound.quiet, Store.exchange, Store.perform_dequeue]
    cases s.broker.store.dequeue (p.schedule.round draw) lease now <;> rfl
  | @settled i p p' b notices found slot d outcome v isCounted phase now h =>
    refine alone.set found rfl fun own logs => ?_
    obtain ⟨r, accepted⟩ := run.settle_eq found phase now
    obtain ⟨stepped, rfl⟩ := Pool.step_of_settleWith phase h
    refine ⟨_, own.moved slot _ stepped, logs.both rfl ?_⟩
    rw [Store.exchange, Store.perform_settle, accepted, Deed.ruling?, Deed.old?, phase]
    rfl
  | @moved i p p' notices found slot m own h =>
    refine alone.set found rfl fun run logs => ⟨_, run.moved slot m h, ?_⟩
    cases m with
    | pull => cases own
    | settle => cases own
    | _ => exact logs.deed rfl rfl
  | stopping found => exact alone.set found rfl fun run logs => ⟨_, run.stopping, logs⟩
  | joined found h => exact alone.set found rfl fun run logs => ⟨_, run.joined h, logs⟩
  | abandoned found => exact alone.set found rfl fun run logs => ⟨_, run.abandoned, logs⟩

theorem Run.alone (run : s.Run) : s.Alone := by
  induction run with
  | start => exact ⟨fun _ => ⟨rfl, rfl⟩, nofun⟩
  | step run step ih => exact step.alone run ih

/-- Where a pool is on its own, an event that tells of a verdict was told as often as its
slots ruled so. -/
theorem Logs.countP_ruled (logs : Logs deeds s.history) (run : s.Run) {name : String}
    (other : name ≠ "enqueued") :
    s.told name = (if name = "leased" then (Pool.pulled deeds).length else 0) +
      (Pool.ruled deeds).countP (·.verdict.tells = name) := by
  rw [told, run.told_eq, List.countP_reverse, run.sound.run.countP_events other, logs.pulled,
    ← logs.ruled, List.countP_map]
  rfl

/-- The store accepts every verdict of a slot.  And when no slot of a pool that is alone with
the broker has a message, its counters agree with what the broker told. -/
theorem Run.accounts (run : s.Run) :
    (∀ p ∈ s.pools, ∀ (slot : Nat) (d : Delivery) (outcome : Outcome) (v : Verdict)
        (isCounted : Bool), p.slots[slot]? = some (.settling d outcome v isCounted) →
          ∀ now, (s.broker.settle d v now).1 = .answered (.ok ())) ∧
      ∀ p, s.pools = [p] → (∀ f ∈ p.slots, f.delivery? = none) →
        s.told "leased" < UInt64.size →
          (deliveries s.history).length = s.told "leased" ∧
            Pool.Balanced p.metrics (s.told "leased") s.told
              ((deliveries s.history).countP p.worker.mismatches) := by
  refine ⟨fun p mem slot d outcome v isCounted phase now => ?_, fun p only quiet few => ?_⟩
  · obtain ⟨i, found⟩ := List.mem_iff_getElem?.mp mem
    obtain ⟨r, accepted⟩ := run.settle_eq found phase now
    rw [Broker.settle_of_quiet run.sound.quiet, accepted]
    rfl
  · obtain ⟨w, deeds, own, logs⟩ := run.alone.one p only
    have none : (Pool.ruled deeds).countP (·.verdict.tells = "leased") = 0 :=
      List.countP_eq_zero.mpr fun r _ => by cases r.verdict <;> simp [Verdict.tells]
    have leased : s.told "leased" = (Pool.pulled deeds).length := by
      rw [logs.countP_ruled run (by decide), if_pos rfl, none, Nat.add_zero]
    rw [leased] at few ⊢
    rw [own.worker_eq, ← logs.pulled]
    have balanced := own.balanced few quiet
    refine ⟨rfl, { balanced with succeeded := ?_, retried := ?_, givenUp := ?_ }⟩
    · rw [balanced.succeeded, logs.countP_ruled run (by decide), if_neg (by decide), Nat.zero_add]
    · rw [balanced.retried, logs.countP_ruled run (by decide), if_neg (by decide), Nat.zero_add]
    · rw [balanced.givenUp, logs.countP_ruled run (by decide), if_neg (by decide), Nat.zero_add]

/-- A message for the same handler, with a payload that does not fit. -/
def exampleMismatch : Message :=
  { exampleMessage with
    envelope := Codec.json.encode { type := "bad:keys", data := .obj [] } }

theorem accounts_of_example :
    ∃ (s : Site Unit) (p : Pool Unit), s.Run ∧ s.pools = [p] ∧
      p.metrics.total = { succeeded := 1, dropped := 1 } ∧ p.metrics.processed = 2 ∧
      s.told "completed" = 1 ∧ s.told "archived" = 1 ∧
      Pool.Balanced p.metrics 2 s.told 1 := by
  have run : Site.Run (η := Unit) _ := .step .start (.opened exampleWorker)
  have run := run.step (.enqueued ⟨"1"⟩ exampleMessage .epoch (by decide))
  -- the first message is done,
  have run := run.step (.moved (i := 0) rfl 0 .check rfl rfl)
  have run := run.step (.pulled (i := 0) rfl 0 (fun _ => 0) ⟨"x"⟩ .epoch (by decide) rfl)
  have run := run.step (.moved (i := 0) rfl 0 .look rfl rfl)
  have run := run.step (.moved (i := 0) rfl 0 .raise rfl rfl)
  have run := run.step (.moved (i := 0) rfl 0 .call rfl rfl)
  have run := run.step (.enqueued ⟨"2"⟩ exampleMismatch .epoch (by decide))
  have run := run.step (.moved (i := 0) rfl 0 (.finish (.returned (.ok ())) .epoch) rfl rfl)
  have run := run.step (.settled (i := 0) rfl 0 rfl .epoch rfl)
  have run := run.step (.pruned .epoch)
  -- and the second is dropped
  have run := run.step (.moved (i := 0) rfl 0 .check rfl rfl)
  have run := run.step (.pulled (i := 0) rfl 0 (fun _ => 0) ⟨"y"⟩ .epoch (by decide) rfl)
  have run := run.step (.moved (i := 0) rfl 0 .look rfl rfl)
  have run := run.step (.moved (i := 0) rfl 0 .raise rfl rfl)
  have run := run.step (.moved (i := 0) rfl 0 .call rfl rfl)
  have run := run.step (.settled (i := 0) rfl 0 rfl .epoch rfl)
  obtain ⟨-, balanced⟩ := run.accounts.2 _ rfl (by
    intro f mem
    cases List.mem_singleton.mp mem
    rfl) (by decide)
  exact ⟨_, _, run, rfl, rfl, rfl, rfl, rfl, balanced⟩

end Site

end JobQueue
