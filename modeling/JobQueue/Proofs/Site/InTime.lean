import JobQueue.Dispatch
import JobQueue.Proofs.Choices
import JobQueue.Proofs.Site.Shared
import JobQueue.Proofs.Store.InTime
import JobQueue.Proofs.Time.Backoff

/-!
# No message comes early

Where the clock never goes back, nobody gets a message before its time, whoever else
uses the broker.  A client that dispatches a job chooses when it may run; the last of
its choices wins over the earlier ones and over the job itself (`Submission.winner`),
and a delay counts from the dispatch.  A slot whose handler failed puts the message off
by its backoff, which counts from when it saw the failure (`Site.PutsOff`).  Both sums
stop at the latest instant of the calendar.

`Site.in_time` has these bounds of every delivery.  They come from what the store does
(`Run.inTime`, `Run.retryAt_le`); what is left is that a verdict on a delivery is
accepted only before the next delivery (`Run.not_superseded`).
-/

namespace JobQueue

open History

/-! ## The choice that wins -/

/-- When a job runs: as the last choice of when says, or after the delay of its own. -/
def Submission.winner (choices : List Choice) (j : Job) : Start :=
  (choices.filterMap Choice.start?).getLast?.getD (.after j.delay)

theorem Submission.processAt_resolve (choices : List Choice) (j : Job) (now : Instant) :
    (resolve choices j now).processAt = (winner choices j).time now := by
  show (Start.time now (choices.foldl Draft.choose (.ofJob j)).start) = _
  rw [Draft.foldl_choose_eq]
  rfl

/-- Whether a time is not before what a start asks for that counts from `u`. -/
def Start.IsMetAt (u t : Instant) : Start → Prop
  | after d => min (u.nanos + d.nanos) latestNanos ≤ t.nanos
  | fixed at_ => at_ ≤ t

theorem Start.isMetAt_iff {u t : Instant} {s : Start} : s.IsMetAt u t ↔ s.time u ≤ t := by
  cases s with
  | after d => rw [time, Instant.le_def, Instant.nanos_after]; rfl
  | fixed => rfl

/-- The message of a job may be delivered when the winning choice says. -/
theorem Message.processAt_ofJob {codec : Codec} {choices : List Choice} {j : Job} {u : Instant}
    {m : Message} (made : ofJob codec choices j u = .ok m) :
    m.processAt = (Submission.winner choices j).time u := by
  unfold ofJob ofPosting at made
  split at made
  · cases made
  · cases made
    exact Submission.processAt_resolve choices j u

/-! ## Backoff -/

/-- The backoff after an attempt is as many times the base, up to the latest
instant. -/
theorem le_nanos_after_retryDelay (u : Instant) (base : Span) (attempt : UInt32) :
    min (u.nanos + attempt.toNat * base.nanos) latestNanos ≤
      (u.after (retryDelay base attempt)).nanos := by
  have times : attempt.toNat * base.nanos ≤ base.nanos * max attempt.toNat 1 := by
    rw [Nat.mul_comm]
    exact Nat.mul_le_mul_left _ (Nat.le_max_left _ _)
  rw [Instant.nanos_after_retryDelay, ← Int.natCast_mul]
  omega

/-! ## Verdicts that come too late -/

namespace Run

variable {h : History} {s : Store}

theorem exists_call {e : Exchange} (run : Run (h ++ [e]) s) :
    ∃ s' q, Run h s' ∧ e = s'.exchange q := by
  generalize eq : h ++ [e] = all at run
  cases run with
  | start => simp at eq
  | call run q fresh =>
    obtain ⟨rfl, last⟩ := List.append_inj' eq rfl
    cases last
    exact ⟨_, q, run, rfl⟩

/-- Once a message is handed out again, no verdict on an earlier delivery of it is
accepted. -/
theorem not_superseded {before between after : History} {e₁ e₂ : Exchange} {v d : Delivery}
    {verdict : Verdict} (run : Run (before ++ e₁ :: between ++ e₂ :: after) s)
    (earlier : v ∈ deliveries before) (given : e₁.delivery? = some d) (job : d.job = v.job) :
    e₂.verdict? ≠ some (v, verdict) := by
  intro accepted
  rw [← List.singleton_append (x := e₂), ← List.append_assoc] at run
  obtain ⟨_, run⟩ := run.exists_of_append
  obtain ⟨s, q, sofar, rfl⟩ := run.exists_call
  obtain ⟨r, found, held⟩ : ∃ r, s.record? v.job = some r ∧ r.lease = some v.lease := by
    unfold Store.exchange at accepted
    have effect := s.perform_effect q
    generalize s.perform q = step at effect accepted
    cases effect with
    | settled isOpen v' now found held =>
      cases accepted
      exact ⟨_, found, held⟩
    | refused => cases q <;> cases accepted
    | enqueued => cases accepted
    | nothing => cases accepted
    | leased => cases accepted
    | pruned => cases accepted
    | closed => cases accepted
  obtain ⟨m, born, -, life⟩ := sofar.life_of_record? found
  obtain ⟨t, last⟩ := life.getLast?_of_lease held
  -- the message is under the lease of its last delivery, which is not in `before`
  have later : r.delivery v.lease ∈ deliveries (e₁ :: between) := by
    have mem : d ∈ deliveriesOf (e₁ :: between) v.job := by
      rw [← job]
      exact mem_deliveriesOf.mpr (List.mem_filterMap.mpr ⟨e₁, List.mem_cons_self, given⟩)
    have some_moment : momentsOf (e₁ :: between) v.job ≠ [] := by
      intro none
      rw [deliveriesOf_eq, none] at mem
      cases mem
    rw [momentsOf_append, List.getLast?_append_of_ne_nil _ some_moment] at last
    have mem := List.mem_of_getLast? last
    refine List.mem_of_mem_filter (p := fun d => d.job = v.job) ?_
    show _ ∈ deliveriesOf (e₁ :: between) v.job
    rw [deliveriesOf_eq]
    exact List.mem_filterMap.mpr ⟨_, mem, rfl⟩
  have nodup := sofar.leases_nodup
  unfold leases deliveries at nodup
  rw [List.filterMap_append, List.map_append, List.nodup_append] at nodup
  exact nodup.2.2 _ (List.mem_map_of_mem earlier) _ (List.mem_map_of_mem later) rfl

/-- A call that hands out a message settles none. -/
theorem verdict?_of_delivery? {e : Exchange} {d : Delivery} (given : e.delivery? = some d) :
    e.verdict? = none := by
  rw [delivery?_eq, Option.bind_eq_some_iff] at given
  obtain ⟨x, moment, leased⟩ := given
  rw [verdict?_eq, moment]
  cases x with
  | leased => rfl
  | settled => cases leased

/-- Once a delivery was made, none that follows comes before what a verdict put it off
to. -/
theorem retryAt_le_of_verdict {made before after : History} {e : Exchange} {v d : Delivery}
    {retryAt t : Instant} {error : String} (run : Run (made ++ before ++ e :: after) s)
    (forward : Forward (made ++ before ++ e :: after)) (earlier : v ∈ deliveries made)
    (accepted : (v, .retry retryAt error) ∈ verdicts (made ++ before ++ e :: after))
    (given : e.delivery? = some d) (job : d.job = v.job) (now : e.request.now? = some t) :
    retryAt ≤ t := by
  obtain ⟨e₁, mem, verdict⟩ := List.mem_filterMap.mp accepted
  rcases List.mem_append.mp mem with first | last
  · obtain ⟨h₁, h₂, eq⟩ := List.append_of_mem first
    rw [eq, List.append_assoc, List.cons_append, ← List.cons_append, ← List.append_assoc]
      at run forward
    exact run.retryAt_le forward verdict given job now
  rcases List.mem_cons.mp last with rfl | last
  · rw [verdict?_of_delivery? given] at verdict
    cases verdict
  · obtain ⟨h₁, h₂, rfl⟩ := List.append_of_mem last
    rw [← List.cons_append, ← List.append_assoc] at run
    refine absurd verdict (run.not_superseded ?_ given job)
    rw [deliveries, List.filterMap_append]
    exact List.mem_append_left _ earlier

end Run

namespace Site

variable {η : Type} {s s₀ s₁ : Site η}

/-! ## Slots that put messages off -/

/-- Whether a slot of a site puts its message off: at a time its handler ends, and the
slot comes to a verdict by the backoff of its pool. -/
inductive PutsOff (s : Site η) (u : Instant) (d : Delivery) : Span → Verdict → Site η → Prop where
  /-- It does. -/
  | mk (i slot : Nat) {call : Nat} {p p' : Pool η} {t : Task} (ending : Ending)
    {notices : List Notice} {v : Verdict} (found : s.pools[i]? = some p)
    (running : p.slots[slot]? = some (.running t call))
    (h : p.step slot (.finish ending u) = some (p', notices))
    (puts : p'.slots[slot]? = some (.settling d .retried v true)) :
    PutsOff s u d p.settings.retryBackoff v (s.turned i p p')

/-- What a slot that puts its message off has come to. -/
theorem PutsOff.eq {u : Instant} {d : Delivery} {base : Span} {v : Verdict}
    (puts : s.PutsOff u d base v s₁) :
    (∃ error, v = .retry (u.after (retryDelay base d.attempt)) error) ∧
      s₁.history = s.history ∧ ∃ place f, s.phase? place = some f ∧ f.delivery? = some d ∧
        Acts s s₁ := by
  cases puts with
  | @mk i slot call p p' t ending _ v found running h puts =>
    have acts : Acts s (s.turned i p p') := .step (.moved found slot (.finish ending u) rfl h)
    obtain ⟨f, phase, f', calls, counters, turn, rfl⟩ := Pool.turn_of_step h
    rw [running] at phase
    cases phase
    have bound : slot < p.slots.length := (List.getElem?_eq_some_iff.mp running).1
    rw [Pool.after, List.getElem?_set_self bound] at puts
    cases puts
    cases turn with
    | retried =>
      refine ⟨⟨_, rfl⟩, rfl, (i, slot), .running t call, ?_, rfl, acts⟩
      rw [phase?_at found, running]

/-! ## The bounds -/

/-- However slots and clients take turns under a clock that never goes back, every
delivery is in time; a message that was dispatched is not delivered before the winning
choice says, counted from the dispatch; and one that a slot put off is not delivered
before the end of its backoff, counted from when the slot saw the failure. -/
theorem in_time (shared : Shared s) (forward : Forward s.history) :
    (∀ before e after d t, s.history = before ++ e :: after → e.delivery? = some d →
      e.request.now? = some t → InTime before d t) ∧
    (∀ id m born codec choices j u, (id, m, born) ∈ enqueued s.history →
      Message.ofJob codec choices j u = .ok m →
        ∀ e ∈ s.history, ∀ d t, e.delivery? = some d → d.job = id → e.request.now? = some t →
          (Submission.winner choices j).IsMetAt u t) ∧
    ∀ (s₀ s₁ : Site η) (u : Instant) (d : Delivery) (base : Span) (v : Verdict),
      Shared s₀ → s₀.PutsOff u d base v s₁ → Later s₁ s → (d, v) ∈ verdicts s.history →
        ∀ e ∈ s.history.drop s₀.history.length, ∀ d' t, e.delivery? = some d' →
          d'.job = d.job → e.request.now? = some t →
            min (u.nanos + d.attempt.toNat * base.nanos) latestNanos ≤ t.nanos := by
  have run := shared.sound.run
  have inTime : ∀ before e after d t, s.history = before ++ e :: after →
      e.delivery? = some d → e.request.now? = some t → InTime before d t := by
    intro before e after d t eq given now
    rw [eq] at run forward
    exact run.inTime forward given now
  refine ⟨inTime, ?_, ?_⟩
  · intro id m born codec choices j u taken made e mem d t given job now
    obtain ⟨before, after, eq⟩ := List.append_of_mem mem
    have known : d ∈ deliveriesOf s.history id := by
      subst job
      exact mem_deliveriesOf.mpr (List.mem_filterMap.mpr ⟨e, mem, given⟩)
    rw [Start.isMetAt_iff, ← Message.processAt_ofJob made, ← run.message_eq taken known]
    exact (inTime before e after d t eq given now).due
  · intro s₀ s₁ u d base v shared₀ puts later accepted e mem d' t given job now
    obtain ⟨⟨error, rfl⟩, same, place, f, phase, has, acts⟩ := puts.eq
    obtain ⟨-, new, grown⟩ := later.history (shared₀.sound.acts acts)
    rw [same] at grown
    rw [grown, List.drop_left] at mem
    obtain ⟨before, after, rfl⟩ := List.append_of_mem mem
    rw [grown, ← List.append_assoc] at run forward accepted
    exact Int.le_trans (le_nanos_after_retryDelay u base d.attempt)
      (run.retryAt_le_of_verdict forward (shared₀.given place f d phase has) accepted given job now)

/-- The `n`th second of 1970. -/
abbrev second (n : UInt64) : Instant := .after .epoch (.ofSeconds n)

/-- The choices of a client that lets a job wait for five seconds. -/
def exampleChoices : List Choice := [.delay (.ofSeconds 5), .maxRetries 2]

/-- The message of a job with these choices. -/
def exampleDelayed : Message :=
  (Message.ofJob .json exampleChoices (.createLog ⟨7, "closed"⟩) .epoch).toOption.get rfl

theorem in_time_of_example :
    ∃ (s : Site Unit) (e e' : Exchange) (d d' : Delivery), Shared s ∧ Forward s.history ∧
      Message.ofJob .json exampleChoices (.createLog ⟨7, "closed"⟩) .epoch =
        .ok exampleDelayed ∧
      s.history[1]? = some e ∧ e.delivery? = some d ∧ e.request.now? = some (second 5) ∧
      s.history[3]? = some e' ∧ e'.delivery? = some d' ∧ e'.request.now? = some (second 9) ∧
      (Start.after (.ofSeconds 5)).IsMetAt .epoch (second 5) ∧
      InTime (s.history.take 3) d' (second 9) ∧
      min ((second 7).nanos + d.attempt.toNat * (Span.ofSeconds 1).nanos) latestNanos ≤
        (second 9).nanos := by
  have shared : Shared (η := Unit) _ := .single (.step (.opened
    { settings := { Settings.default with concurrency := 1 }
      codec := .json, registry := { routes := [(.createLog, ())] } }))
  have shared := shared.tail (.called (.enqueue ⟨"1"⟩ exampleDelayed .epoch) (by decide))
  -- the handler fails at the first attempt, which the slot sees at the seventh second
  have shared := shared.tail (.step (.moved (i := 0) rfl 0 .check rfl rfl))
  have shared := shared.tail (.step
    (.pulled (i := 0) rfl 0 (fun _ => 0) ⟨"x"⟩ (second 5) (by decide) rfl))
  have shared := shared.tail (.step (.moved (i := 0) rfl 0 .look rfl rfl))
  have shared := shared.tail (.step (.moved (i := 0) rfl 0 .raise rfl rfl))
  have shared₀ := shared.tail (.step (.moved (i := 0) rfl 0 .call rfl rfl))
  have shared₁ := shared₀.tail (.step (.moved (i := 0) rfl 0
    (.finish (.returned (.error (.retryable "wait"))) (second 7)) rfl rfl))
  have same : ∀ {s : Site Unit}, Shared s → Later s s := fun _ => .refl
  have later := (same shared₁).tail (.step (.settled (i := 0) rfl 0 rfl (second 7) rfl))
  have later := later.tail (.step (.moved (i := 0) rfl 0 .check rfl rfl))
  have later := later.tail (.step
    (.pulled (i := 0) rfl 0 (fun _ => 0) ⟨"y"⟩ (second 9) (by decide) rfl))
  have shared := shared₁.trans later
  obtain ⟨inTime, chosen, backoff⟩ := in_time shared (by decide)
  refine ⟨_, _, _, _, _, shared, by decide, rfl, rfl, rfl, rfl, rfl, rfl, rfl, ?_, ?_, ?_⟩
  · exact chosen ⟨"1"⟩ exampleDelayed .epoch .json exampleChoices (.createLog ⟨7, "closed"⟩)
      .epoch (by decide) rfl _ (List.mem_of_getElem? (i := 1) rfl) _ _ rfl rfl rfl
  · exact inTime _ _ [] _ _ rfl rfl rfl
  · exact backoff _ _ (second 7) _ _ _ shared₀
      (.mk 0 0 (.returned (.error (.retryable "wait"))) rfl rfl rfl rfl) later
      (by decide) _ (List.mem_of_getElem? (i := 1) rfl) _ _ rfl rfl rfl

end Site

end JobQueue
