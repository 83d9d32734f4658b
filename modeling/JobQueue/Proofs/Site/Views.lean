import JobQueue.Proofs.Site.Sound

/-!
# A site from one message

What a site shows of one message: the slot that holds it (`Site.HeldBy`) and the
invocations for it, in the order in which they began (`Site.callsOf`).  Each part
says how a step changes one of the two.
-/

namespace JobQueue

open History

/-- Whether a slot in this phase holds a message. -/
def Phase.Holds (f : Phase) (id : JobId) : Prop := ∃ d, f.delivery? = some d ∧ d.job = id

/-- What an invocation says about its job, if it has ended. -/
def Invocation.result? (i : Invocation) : Option (Except JobError Unit) :=
  i.ending.map fun e => e.result (i.context.timeout.getD .zero)

theorem Phase.not_holds_of_none {f : Phase} (none : f.delivery? = none) (id : JobId) :
    ¬ f.Holds id := by
  rintro ⟨d, hd, -⟩
  rw [none] at hd
  cases hd

theorem Phase.holds_congr {f f' : Phase} (same : f'.delivery? = f.delivery?) (id : JobId) :
    f'.Holds id ↔ f.Holds id := by
  unfold Holds
  rw [same]

namespace Site

variable {η : Type} {s s' : Site η} {id : JobId} {i slot : Nat} {p : Pool η}

/-! ## Who holds the message -/

/-- Whether a message is held by nobody, or by a slot in a phase and by nobody
else. -/
def HeldBy (s : Site η) (id : JobId) : Option (Place × Phase) → Prop
  | none => ∀ place f, s.phase? place = some f → ¬ f.Holds id
  | some (holder, f) =>
    s.phase? holder = some f ∧ f.Holds id ∧
      ∀ place f', s.phase? place = some f' → f'.Holds id → place = holder

variable {holder : Option (Place × Phase)}

/-- A message is held as before if the slots that hold it are as before. -/
theorem HeldBy.of_iff (held : s.HeldBy id holder)
    (same : ∀ place f, f.Holds id → (s'.phase? place = some f ↔ s.phase? place = some f)) :
    s'.HeldBy id holder := by
  cases holder with
  | none =>
    intro place f phase holds
    exact held place f ((same place f holds).mp phase) holds
  | some x =>
    obtain ⟨holder, f⟩ := x
    obtain ⟨phase, holds, alone⟩ := held
    refine ⟨(same holder f holds).mpr phase, holds, ?_⟩
    intro place f' phase' holds'
    exact alone place f' ((same place f' holds').mp phase') holds'

section put

variable {f f' : Phase} {calls : List Invocation} {counters : Metrics}

/-- The turn of a slot that does not hold a message leaves it where it is. -/
theorem HeldBy.put_of_not_holds (held : s.HeldBy id holder) (found : s.pools[i]? = some p)
    (phase : p.slots[slot]? = some f) (before : ¬ f.Holds id) (after : ¬ f'.Holds id) :
    (s.put i (p.after slot f' calls counters)).HeldBy id holder := by
  refine held.of_iff ?_
  intro place g holds
  rw [phase?_put found phase]
  split
  · next eq =>
    rw [eq, phase?_at found, phase]
    constructor
    · intro eq
      cases eq
      exact absurd holds after
    · intro eq
      cases eq
      exact absurd holds before
  · rfl

/-- A slot gets a message that nobody holds. -/
theorem HeldBy.put_holds (held : s.HeldBy id none) (found : s.pools[i]? = some p)
    (phase : p.slots[slot]? = some f) (after : f'.Holds id) :
    (s.put i (p.after slot f' calls counters)).HeldBy id (some ((i, slot), f')) := by
  refine ⟨?_, after, ?_⟩
  · rw [phase?_put found phase, if_pos rfl]
  · intro place g phase' holds
    rw [phase?_put found phase] at phase'
    split at phase'
    · next eq => exact eq
    · exact absurd holds (held place g phase')

/-- The slot that holds a message is the one that is in its turn. -/
theorem HeldBy.eq_of_holds (held : s.HeldBy id holder) (found : s.pools[i]? = some p)
    (phase : p.slots[slot]? = some f) (holds : f.Holds id) : holder = some ((i, slot), f) := by
  have here : s.phase? (i, slot) = some f := by rw [phase?_at found, phase]
  cases holder with
  | none => exact absurd holds (held _ f here)
  | some x =>
    obtain ⟨holder, g⟩ := x
    obtain ⟨there, -, alone⟩ := held
    have eq := alone _ f here holds
    subst eq
    rw [here] at there
    cases there
    rfl

/-- A slot that holds a message goes on with it. -/
theorem HeldBy.put_keeps (held : s.HeldBy id (some ((i, slot), f)))
    (found : s.pools[i]? = some p) (phase : p.slots[slot]? = some f) (after : f'.Holds id) :
    (s.put i (p.after slot f' calls counters)).HeldBy id (some ((i, slot), f')) := by
  obtain ⟨-, -, alone⟩ := held
  refine ⟨?_, after, ?_⟩
  · rw [phase?_put found phase, if_pos rfl]
  · intro place g phase' holds
    rw [phase?_put found phase] at phase'
    split at phase'
    · next eq => exact eq
    · exact alone place g phase' holds

/-- A slot lets a message go. -/
theorem HeldBy.put_leaves (held : s.HeldBy id (some ((i, slot), f)))
    (found : s.pools[i]? = some p) (phase : p.slots[slot]? = some f) (after : ¬ f'.Holds id) :
    (s.put i (p.after slot f' calls counters)).HeldBy id none := by
  obtain ⟨-, -, alone⟩ := held
  intro place g phase' holds
  rw [phase?_put found phase] at phase'
  split at phase'
  · cases phase'
    exact after holds
  · next ne => exact ne (alone place g phase' holds)

end put

/-! ## The invocations for the message -/

/-- The invocations for a message, in the order in which they began. -/
def callsOf (s : Site η) (id : JobId) : List (Place × Invocation) :=
  s.began.filterMap fun place =>
    (s.invocation? place).bind fun call =>
      if call.context.job = id then some (place, call) else none

/-- The invocations are as before if all that began are. -/
theorem callsOf_congr (began : s'.began = s.began)
    (same : ∀ place ∈ s.began, s'.invocation? place = s.invocation? place) (id : JobId) :
    s'.callsOf id = s.callsOf id := by
  unfold callsOf
  rw [began]
  refine List.filterMap_congr ?_
  intro place mem
  rw [same place mem]

/-- A pool that starts has no invocations. -/
theorem callsOf_opened (w : Worker η) (id : JobId) :
    ({ s with pools := s.pools ++ [(Pool.start w).1] } : Site η).callsOf id = s.callsOf id := by
  refine callsOf_congr ?_ ?_ id
  · rfl
  · intro place mem
    exact invocation?_opened w

theorem callsOf_served (q : Request) (id : JobId) : (s.served q).callsOf id = s.callsOf id := rfl

theorem callsOf_put {p' : Pool η} (found : s.pools[i]? = some p)
    (same : p'.invocations = p.invocations) (id : JobId) :
    (s.put i p').callsOf id = s.callsOf id := by
  refine callsOf_congr ?_ ?_ id
  · rfl
  · intro place mem
    exact invocation?_put_of_eq found same

/-- A turn with a call of the store begins no invocation. -/
theorem callsOf_put_served (found : s.pools[i]? = some p) (q : Request) (slot : Nat) (f : Phase)
    (counters : Metrics) (id : JobId) :
    ((s.served q).put i (p.after slot f p.invocations counters)).callsOf id = s.callsOf id := by
  rw [← callsOf_served (s := s) q]
  refine callsOf_put (p := p) ?_ ?_ id
  · exact found
  · rfl

theorem mem_callsOf {place : Place} {call : Invocation} :
    (place, call) ∈ s.callsOf id ↔
      place ∈ s.began ∧ s.invocation? place = some call ∧ call.context.job = id := by
  simp only [callsOf, List.mem_filterMap, Option.bind_eq_some_iff, Option.ite_none_right_eq_some,
    Option.some.injEq, Prod.mk.injEq]
  constructor
  · rintro ⟨_, began, _, found, job, rfl, rfl⟩
    exact ⟨began, found, job⟩
  · rintro ⟨began, found, job⟩
    exact ⟨place, began, call, found, job, rfl, rfl⟩

/-- No invocation is listed twice. -/
theorem Sound.callsOf_nodup (sound : s.Sound) (id : JobId) :
    ((s.callsOf id).map Prod.fst).Nodup := by
  have sub : ((s.callsOf id).map Prod.fst).Sublist s.began := by
    unfold callsOf
    induction s.began with
    | nil => exact .slnil
    | cons place rest ih =>
      rw [List.filterMap_cons]
      split
      · exact ih.cons place
      · next eq =>
        obtain ⟨call, -, eq⟩ := Option.bind_eq_some_iff.mp eq
        split at eq <;> cases eq
        exact ih.cons_cons place
  exact sound.began_nodup.sublist sub

/-- No invocation is for a message that was never taken. -/
theorem Sound.callsOf_eq_nil (sound : s.Sound) (fresh : id ∉ ids s.history) :
    s.callsOf id = [] := by
  rw [List.eq_nil_iff_forall_not_mem]
  rintro ⟨⟨i, n⟩, call⟩ mem
  obtain ⟨-, found, job⟩ := mem_callsOf.mp mem
  obtain ⟨p, found, call_eq⟩ := Option.bind_eq_some_iff.mp found
  have known := (sound.of_mem found).invocation call (List.mem_of_getElem? call_eq)
  exact fresh (job ▸ known)

section turned

variable {f' : Phase} {counters : Metrics}

/-- A turn without invocations. -/
theorem callsOf_turned_same (found : s.pools[i]? = some p) (id : JobId) :
    (s.turned i p (p.after slot f' p.invocations counters)).callsOf id = s.callsOf id := by
  refine callsOf_congr ?_ ?_ id
  · show s.began ++ newIn i p _ = s.began
    rw [newIn_of_length_eq i (p.after_length rfl), List.append_nil]
  · intro place mem
    exact invocation?_put_of_eq found rfl

/-- An invocation begins. -/
theorem callsOf_turned_begun (sound : s.Sound) (found : s.pools[i]? = some p) (call : Invocation)
    (id : JobId) :
    (s.turned i p (p.after slot f' (p.invocations ++ [call]) counters)).callsOf id =
      s.callsOf id ++
        if call.context.job = id then [((i, p.invocations.length), call)] else [] := by
  unfold callsOf
  show (s.began ++ newIn i p _).filterMap _ = _
  rw [newIn_concat i rfl, List.filterMap_append]
  congr 1
  · refine List.filterMap_congr ?_
    intro place mem
    have old := (sound.mem_began place).mp mem
    show Option.bind ((s.put i _).invocation? place) _ = _
    rw [invocation?_put found]
    split
    · next eq =>
      have here : s.invocation? place = p.invocations[place.2]? := by
        rw [← invocation?_at found, ← eq]
      rw [here] at old ⊢
      obtain ⟨call', found'⟩ := Option.isSome_iff_exists.mp old
      have bound := (List.getElem?_eq_some_iff.mp found').1
      rw [Pool.after, List.getElem?_append_left bound]
    · rfl
  · have new : (s.put i (p.after slot f' (p.invocations ++ [call]) counters)).invocation?
        (i, p.invocations.length) = some call := by
      rw [invocation?_put found, if_pos rfl]
      exact List.getElem?_concat_length
    show List.filterMap (fun place => ((s.put i _).invocation? place).bind _) _ = _
    rw [List.filterMap_cons, new, Option.bind_some]
    by_cases job : call.context.job = id
    · rw [if_pos job, if_pos job]
      rfl
    · rw [if_neg job, if_neg job]
      rfl

/-- An invocation ends. -/
theorem callsOf_turned_ended (found : s.pools[i]? = some p) (n : Nat) (ending : Ending)
    (id : JobId) :
    (s.turned i p
        (p.after slot f' (p.invocations.modify n (·.concluded ending)) counters)).callsOf id =
      (s.callsOf id).map fun x => if x.1 = (i, n) then (x.1, x.2.concluded ending) else x := by
  unfold callsOf
  show (s.began ++ newIn i p _).filterMap _ = _
  rw [newIn_of_length_eq i (p.after_length (List.length_modify _ _ _)), List.append_nil,
    List.map_filterMap]
  refine List.filterMap_congr ?_
  rintro ⟨j, k⟩ -
  show Option.bind ((s.put i _).invocation? (j, k)) _ = _
  rw [invocation?_put found]
  by_cases eq : j = i
  · subst eq
    rw [if_pos rfl, invocation?_at found, Pool.after, List.getElem?_modify]
    cases p.invocations[k]? with
    | none => rfl
    | some call =>
      by_cases eq : n = k
      · subst eq
        by_cases job : call.context.job = id <;> simp [job, Invocation.concluded]
      · by_cases job : call.context.job = id <;> simp [job, eq, Ne.symm eq]
  · rw [if_neg eq]
    cases s.invocation? (j, k) with
    | none => rfl
    | some call => by_cases job : call.context.job = id <;> simp [job, eq]

/-- The turn of a slot that does not hold a message leaves the invocations for it. -/
theorem callsOf_turned_of_not_holds (sound : s.Sound) (found : s.pools[i]? = some p) {f : Phase}
    {move : Move} {calls : List Invocation} (phase : p.slots[slot]? = some f)
    (turn : p.Turn f move f' calls counters) (other : ¬ f.Holds id) :
    (s.turned i p (p.after slot f' calls counters)).callsOf id = s.callsOf id := by
  have hf : f ∈ p.slots := List.mem_of_getElem? phase
  have job : ∀ {t}, f.task? = some t → t.context.job ≠ id := by
    rintro t task rfl
    refine other ⟨t.delivery, Phase.delivery?_of_task? task, ?_⟩
    exact ((sound.of_mem found).job_eq hf task).symm
  cases turn.effect with
  | same => exact callsOf_turned_same found id
  | begun t stage payload asks =>
    rw [callsOf_turned_begun sound found, if_neg (job asks.task?), List.append_nil]
  | ended t n ending before waited =>
    rw [callsOf_turned_ended found]
    refine (List.map_congr_left ?_).trans (List.map_id' _)
    rintro ⟨place, call⟩ mem
    obtain ⟨-, here, job'⟩ := mem_callsOf.mp mem
    refine if_neg ?_
    rintro rfl
    obtain ⟨call', there, context⟩ := (sound.of_mem found).call f hf t n before waited
    rw [invocation?_at found, there] at here
    cases here
    exact job before (context ▸ job')

end turned

end Site

end JobQueue
