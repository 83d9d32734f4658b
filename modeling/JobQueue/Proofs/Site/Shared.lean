import JobQueue.Proofs.Site.Works
import JobQueue.Proofs.Store.Log
import Mathlib.Logic.Relation

/-!
# Sites that others use as well

A broker may have clients that are no pools of its own: they pull and settle messages
for themselves, settle what they never got, or close the broker.  `Site.Acts` lets them
call the store for whatever they like, under the one condition that identifiers and
leases are fresh.

What slots do then need not come to anything, since somebody else may have settled
their messages.  Still a site stays sound (`Shared.sound`), its history only grows
(`Later.history`), its broker tells of the calls in this history (`Shared.told_eq`), so that
the log of the broker determines its store (`Shared.log_determines`), and a slot has only
what the store handed out (`Shared.given`).
-/

namespace JobQueue

open History

namespace Site

variable {η : Type} {s s' : Site η}

/-- Something happens at a site that others use as well. -/
inductive Acts (s : Site η) : Site η → Prop where
  /-- Something happens that happens without them, too. -/
  | step {s' : Site η} (step : Step s s') : Acts s s'
  /-- Somebody calls the store. -/
  | called (q : Request) (fresh : q.IsFresh s.history) : Acts s (s.served q)

/-- Whether a site comes about from another one, in any number of steps. -/
abbrev Later : Site η → Site η → Prop := Relation.ReflTransGen Acts

/-- Whether a site comes about from a new broker without pools. -/
abbrev Shared (s : Site η) : Prop := Later {} s

theorem Sound.acts (sound : s.Sound) (acts : Acts s s') : s'.Sound := by
  cases acts with
  | step step => exact sound.step step
  | called q fresh => exact sound.served fresh

theorem Shared.sound (shared : Shared s) : s.Sound := by
  induction shared with
  | refl => exact Run.start.sound
  | tail _ acts ih => exact ih.acts acts

/-- What happens at a site without others may happen with them. -/
theorem Run.shared (run : s.Run) : Shared s := by
  induction run with
  | start => exact .refl
  | step run step ih => exact ih.tail (.step step)

/-! ## Histories grow -/

theorem Change.history (change : Change s s') : ∃ new, s'.history = s.history ++ new := by
  cases change with
  | client => exact ⟨_, rfl⟩
  | pulled => exact ⟨_, rfl⟩
  | settled => exact ⟨_, rfl⟩
  | _ => exact ⟨[], (List.append_nil _).symm⟩

theorem Sound.history_acts (sound : s.Sound) (acts : Acts s s') :
    ∃ new, s'.history = s.history ++ new := by
  cases acts with
  | step step => exact (step.change sound.quiet).history
  | called q fresh => exact ⟨_, rfl⟩

theorem Later.history (later : Later s s') (sound : s.Sound) :
    s'.Sound ∧ ∃ new, s'.history = s.history ++ new := by
  induction later with
  | refl => exact ⟨sound, [], (List.append_nil _).symm⟩
  | tail _ acts ih =>
    obtain ⟨sound', new, eq⟩ := ih
    obtain ⟨more, eq'⟩ := sound'.history_acts acts
    exact ⟨sound'.acts acts, new ++ more, by rw [eq', eq, List.append_assoc]⟩

/-! ## What is told -/

theorem told_served (told : s.broker.told = (events s.history).reverse) (q : Request) :
    (s.served q).broker.told = (events (s.served q).history).reverse := by
  show _ ++ s.broker.told = (events (s.history ++ [s.broker.store.exchange q])).reverse
  rw [events_concat, List.reverse_append, told, Store.exchange]
  cases (s.broker.store.perform q).event <;> rfl

/-- The broker tells what is told of the calls of its store. -/
theorem Shared.told_eq (shared : Shared s) : s.broker.told = (events s.history).reverse := by
  induction shared with
  | refl => rfl
  | tail shared acts ih =>
    cases acts with
    | called q => exact told_served ih q
    | step step =>
      cases step.change (Shared.sound shared).quiet with
      | opened => exact ih
      | tuned => exact ih
      | client => exact told_served ih _
      | pulled => exact told_served (s := ‹_›) ih _
      | settled => exact told_served (s := ‹_›) ih _
      | moved => exact ih

/-- All that the broker told, in its order. -/
def log (s : Site η) : List Event := s.broker.told.reverse

/-- What the broker told of a message. -/
def logOf (s : Site η) (id : JobId) : List Event := s.log.filter fun e => e.job = id

theorem Shared.log_eq (shared : Shared s) : s.log = events s.history := by
  rw [log, shared.told_eq, List.reverse_reverse]

theorem Shared.logOf_eq (shared : Shared s) (id : JobId) :
    s.logOf id = eventsOf s.history id := by
  rw [logOf, shared.log_eq, eventsOf]

/-- The queues of the broker are what its log makes of them. -/
theorem Shared.mem_queue_iff (shared : Shared s) (queue : String) (id : JobId) :
    id ∈ s.broker.store.queue queue ↔
      ∃ p, Portrait.ofEvents (s.logOf id) = some p ∧ p.standing.isWaiting ∧ p.queue = queue := by
  have run := shared.sound.run
  rw [run.inStep.mem_queue_iff, shared.logOf_eq]
  constructor
  · rintro ⟨r, found, waits, queue⟩
    obtain ⟨p, portrayed, shows, -⟩ := run.ofEvents (run.id_mem_of_record? found)
    cases shows r found
    exact ⟨_, portrayed, r.status.isWaiting_standing.trans waits, queue⟩
  · rintro ⟨p, portrayed, waits, queue⟩
    by_cases taken : id ∈ ids s.history
    · obtain ⟨p', portrayed', shows, ended⟩ := run.ofEvents taken
      cases portrayed.symm.trans portrayed'
      cases found : s.broker.store.record? id with
      | some r =>
        cases shows r found
        exact ⟨r, rfl, r.status.isWaiting_standing.symm.trans waits, queue⟩
      | none =>
        have ended := ended found
        cases hs : p.standing <;> simp [hs, Standing.isWaiting, Standing.isTerminal] at waits ended
    · rw [run.eventsOf_eq_nil taken] at portrayed
      cases portrayed

/-- The log of a broker determines its store.  It has an event for each call that comes to
something, and no other.  What it says of a message that was taken comes in the order of
a life and gives the portrait of its record, as long as there is one; and the messages
that wait by their portraits are those on the queues. -/
theorem Shared.log_determines (shared : Shared s) :
    (s.log = s.history.filterMap Exchange.event ∧
        ∀ e ∈ s.history, e.event = none ↔ e.IsSilent) ∧
      (∀ id, id ∉ ids s.history → s.logOf id = []) ∧
      (∀ id ∈ ids s.history, ∃ p, Portrait.ofEvents (s.logOf id) = some p ∧
        Portrait.Reads (s.logOf id) p ∧
        (∀ r, s.broker.store.record? id = some r → r.portrait = p) ∧
        (s.broker.store.record? id = none → p.standing.isTerminal)) ∧
      ∀ queue id, id ∈ s.broker.store.queue queue ↔
        ∃ p, Portrait.ofEvents (s.logOf id) = some p ∧ p.standing.isWaiting ∧ p.queue = queue := by
  have run := shared.sound.run
  refine ⟨⟨shared.log_eq, run.event_eq_none_iff⟩, fun id unknown => ?_, fun id taken => ?_,
    shared.mem_queue_iff⟩
  · rw [shared.logOf_eq, run.eventsOf_eq_nil unknown]
  · obtain ⟨p, portrayed, shows, ended⟩ := run.ofEvents taken
    rw [shared.logOf_eq]
    exact ⟨p, portrayed, Portrait.reads_of_ofEvents portrayed, shows, ended⟩

theorem log_determines_of_example :
    ∃ (s : Site Unit) (r : Record), Shared s ∧ s.broker.store.record? ⟨"1"⟩ = some r ∧
      r.status = .archived .epoch "never" ∧
      (s.logOf ⟨"1"⟩).map Event.name =
        ["enqueued", "leased", "retrying", "leased", "archived"] ∧
      Portrait.ofEvents (s.logOf ⟨"1"⟩) = some r.portrait := by
  have shared : Shared (η := Unit) {} := .refl
  have shared := shared.tail (.called exampleRequests[0] (by decide))
  have shared := shared.tail (.called exampleRequests[1] (by decide))
  have shared := shared.tail (.called exampleRequests[2] (by decide))
  have shared := shared.tail (.called exampleRequests[3] (by decide))
  have shared := shared.tail (.called exampleRequests[4] (by decide))
  -- this one fails
  have shared := shared.tail (.called exampleRequests[5] (by decide))
  have shared := shared.tail (.called exampleRequests[6] (by decide))
  have shared := shared.tail (.called (.prune .epoch) trivial)
  obtain ⟨p, portrayed, -, shows, -⟩ := (Shared.log_determines shared).2.2.1 ⟨"1"⟩ (by decide)
  exact ⟨_, _, shared, rfl, rfl, rfl, (shows _ rfl).symm ▸ portrayed⟩

/-! ## What slots have -/

/-- Whether a slot has only what the store handed out. -/
def Given (s : Site η) : Prop :=
  ∀ place f d, s.phase? place = some f → f.delivery? = some d → d ∈ deliveries s.history

/-- A step gives a slot only what the store hands out. -/
theorem Given.change (given : s.Given) (change : Change s s') : s'.Given := by
  intro place f d phase has
  cases change with
  | opened w =>
    exact given place f d ((phase?_opened w ⟨d, has, rfl⟩).mp phase) has
  | tuned found agrees =>
    rw [phase?_put_of_eq found agrees.slots] at phase
    exact given place f d phase has
  | client => exact mem_deliveries_append (given place f d phase has) _
  | @pulled i p found slot old draw lease now fresh m f' turn answer =>
    have found' : (s.served (.dequeue (p.schedule.round draw) lease now)).pools[i]? = some p :=
      found
    rw [phase?_put found' old] at phase
    split at phase
    · cases phase
      rw [answer] at has
      exact mem_deliveries_concat.mpr
        (.inr (Store.delivery?_of_dequeued (Phase.answer_eq_of_delivery? has)))
    · exact mem_deliveries_append (given place f d phase has) _
  | @settled i p found slot d' outcome v isCounted old now =>
    have found' : (s.served (.settle d' v now)).pools[i]? = some p := found
    rw [phase?_put found' old] at phase
    split at phase
    · cases phase
      cases has
    · exact mem_deliveries_append (given place f d phase has) _
  | @moved i p found slot f₀ f₁ m calls counters old turn own =>
    have phase : (s.put i (p.after slot f₁ calls counters)).phase? place = some f := phase
    rw [phase?_put found old] at phase
    split at phase
    · next here =>
      cases phase
      rw [turn.delivery?_eq own] at has
      exact given (i, slot) f₀ d (by rw [phase?_at found, old]) has
    · exact given place f d phase has

theorem Shared.given (shared : Shared s) : s.Given := by
  induction shared with
  | refl =>
    intro place f d phase
    simp [phase?] at phase
  | tail shared acts ih =>
    cases acts with
    | step step => exact ih.change (step.change (Shared.sound shared).quiet)
    | called q fresh =>
      intro place f d phase has
      exact mem_deliveries_append (ih place f d phase has) _

end Site

end JobQueue
