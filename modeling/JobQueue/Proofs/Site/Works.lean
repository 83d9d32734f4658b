import JobQueue.Proofs.Site.Budget

/-!
# Sites whose broker closes

A broker may close while slots work (`Site.Goes`).  It then hands out nothing more and
accepts no verdict, so its records no longer follow what the slots do.  The slot that
has a message goes on with it all the same, where the delivery says: this is
`Site.Works`, which every message on its course has and which lasts when the broker
has closed.
-/

namespace JobQueue

open History

/-- A closed store hands out nothing. -/
theorem Store.ofAnswer_of_closed {s : Store} (closed : ¬ s.isOpen) (queues : List String)
    (lease : LeaseToken) (now : Instant) :
    Phase.ofAnswer (s.perform (.dequeue queues lease now)).answer = .idle := by
  rw [perform_dequeue, dequeue, whenOpen, if_neg closed]
  rfl

namespace Site

variable {η : Type} {s s' : Site η} {id : JobId} {m : Message}

/-- A site goes on. -/
inductive Goes (s : Site η) : Site η → Prop where
  /-- Something happens that leaves the broker open if it is. -/
  | step {s' : Site η} (step : Step s s') : Goes s s'
  /-- The broker closes. -/
  | closed : Goes s (s.called .close { s.broker with store := s.broker.store.close })

theorem Sound.goes (sound : s.Sound) (goes : Goes s s') : s'.Sound := by
  cases goes with
  | step step => exact sound.step step
  | closed => exact sound.served (q := .close) trivial

theorem Change.ids_subset (change : Change s s') : ids s.history ⊆ ids s'.history := by
  have grows : ∀ e, ids s.history ⊆ ids (s.history ++ [e]) := by
    intro e id mem
    rw [ids_append]
    exact List.mem_append_left _ mem
  cases change with
  | client => exact grows _
  | pulled => exact grows _
  | settled => exact grows _
  | _ => exact List.Subset.refl _

/-- Whether a message is with nobody, or with one slot that is where the delivery to
it says. -/
inductive Works (s : Site η) (id : JobId) (m : Message) : Prop where
  /-- It is with nobody. -/
  | free (held : s.HeldBy id none) : Works s id m
  /-- It is with a slot. -/
  | busy {place : Place} {f : Phase} {d : Delivery} (held : s.HeldBy id (some (place, f)))
    (delivery : f.delivery? = some d) (job : d.job = id) (message : d.message = m)
    (doing : Doing m.budget.toNat d.attempt.toNat place.1 f (s.callsOf id)) : Works s id m

theorem Follows.works {r : Record} (follows : s.Follows id m r) : s.Works id m := by
  obtain ⟨holder, held, course⟩ := follows.course
  cases course with
  | held active lease_eq delivery doing =>
    exact .busy held delivery follows.id_eq follows.message doing
  | waiting => exact .free held
  | completed => exact .free held
  | archived => exact .free held

namespace Works

theorem of_same (works : s.Works id m)
    (phases : ∀ place f, f.Holds id → (s'.phase? place = some f ↔ s.phase? place = some f))
    (calls : s'.callsOf id = s.callsOf id) : s'.Works id m := by
  cases works with
  | free held => exact .free (held.of_iff phases)
  | busy held delivery job message doing =>
    exact .busy (held.of_iff phases) delivery job message (calls ▸ doing)

variable {i slot : Nat} {p : Pool η} {f f' : Phase} {counters : Metrics}

/-- A slot that is left without a message leaves the others where they are. -/
theorem put_leaves (works : s.Works id m) (found : s.pools[i]? = some p)
    (phase : p.slots[slot]? = some f) (after : f'.delivery? = none) :
    (s.put i (p.after slot f' p.invocations counters)).Works id m := by
  have after := Phase.not_holds_of_none after id
  have calls : (s.put i (p.after slot f' p.invocations counters)).callsOf id = s.callsOf id := by
    refine callsOf_put found ?_ id
    rfl
  cases works with
  | free held =>
    have here : s.phase? (i, slot) = some f := by rw [phase?_at found, phase]
    exact .free (held.put_of_not_holds found phase (held _ f here) after)
  | busy held delivery job message doing =>
    by_cases holds : f.Holds id
    · cases held.eq_of_holds found phase holds
      exact .free (held.put_leaves found phase after)
    · exact .busy (held.put_of_not_holds found phase holds after) delivery job message
        (calls ▸ doing)

/-- A slot goes on with its message, and leaves the others where they are. -/
theorem moved (works : s.Works id m) (sound : s.Sound) (handled : s.Handles m)
    (found : s.pools[i]? = some p) {move : Move} {calls : List Invocation}
    (phase : p.slots[slot]? = some f) (turn : p.Turn f move f' calls counters)
    (own : move.isOwn) : (s.turned i p (p.after slot f' calls counters)).Works id m := by
  have same := Phase.holds_congr (turn.delivery?_eq own) id
  cases works with
  | free held =>
    have here : s.phase? (i, slot) = some f := by rw [phase?_at found, phase]
    have other := held _ f here
    exact .free (HeldBy.put_of_not_holds held found phase other (mt same.mp other))
  | busy held delivery job message doing =>
    by_cases holds : f.Holds id
    · cases held.eq_of_holds found phase holds
      exact .busy (HeldBy.put_keeps held found phase (same.mpr holds))
        ((turn.delivery?_eq own).trans delivery) job message
        (handled.doing_turn sound found phase delivery job message doing turn own)
    · refine .busy (HeldBy.put_of_not_holds held found phase holds (mt same.mp holds)) delivery job
        message ?_
      rw [callsOf_turned_of_not_holds sound found phase turn holds]
      exact doing

/-- Once the broker has closed, slots go on with what they have and get nothing new. -/
theorem change_of_closed (works : s.Works id m) (sound : s.Sound)
    (closed : ¬ s.broker.store.isOpen) (handled : s.Handles m) (change : Change s s') :
    s'.Works id m := by
  cases change with
  | opened w => exact works.of_same (fun _ _ holds => phase?_opened w holds) (callsOf_opened w id)
  | tuned found agrees =>
    refine works.of_same ?_ (callsOf_put found agrees.invocations id)
    intro place f holds
    rw [phase?_put_of_eq found agrees.slots]
  | client => exact works.of_same (fun _ _ _ => .rfl) (callsOf_served _ id)
  | @pulled i p found slot phase draw lease now fresh move f turn answer =>
    rw [Store.ofAnswer_of_closed closed] at answer
    subst answer
    have here : (s.served (.dequeue (p.schedule.round draw) lease now)).Works id m :=
      works.of_same (fun _ _ _ => .rfl) rfl
    exact here.put_leaves found phase rfl
  | @settled i p found slot d outcome v isCounted phase now =>
    have here : (s.served (.settle d v now)).Works id m := works.of_same (fun _ _ _ => .rfl) rfl
    exact here.put_leaves found phase rfl
  | moved found phase turn own => exact works.moved sound handled found phase turn own

end Works

end Site

end JobQueue
