import JobQueue.Proofs.Pool.Turns
import Mathlib.Data.List.Perm.Basic

/-!
# Runs of a pool

A pool that was started goes on by the steps of its slots, in any order, and somebody
may stop it in between.  `Pool.Run` keeps a list of what the slots did.  Nothing is
said of the broker: whatever it replies is up to the step (`Move`), and so is how a
handler ends.

A turn replaces the phase of one slot (`Pool.exists_rest`), so what the slots have
together changes by what this one slot contributes.  The first such fact is that every
message that was pulled was ruled on or is in the hands of a slot
(`Pool.Run.pulled_perm`).
-/

namespace JobQueue

variable {η : Type}

/-- What a slot tells the broker of its message. -/
structure Ruling where
  /-- The delivery of the message. -/
  delivery : Delivery
  /-- How it ended. -/
  outcome : Outcome
  /-- What the broker is to do with it. -/
  verdict : Verdict

/-- What a slot is about to tell the broker. -/
def Phase.ruling? : Phase → Option Ruling
  | settling d outcome v _ => some ⟨d, outcome, v⟩
  | _ => none

/-- A step that a slot of a pool made. -/
structure Deed (η : Type) where
  /-- The pool before. -/
  before : Pool η
  /-- The slot. -/
  slot : Nat
  /-- Its move. -/
  move : Move
  /-- The pool afterwards. -/
  after : Pool η

namespace Deed

/-- The phase of the slot before. -/
def old? (x : Deed η) : Option Phase := x.before.slots[x.slot]?

/-- The phase of the slot afterwards. -/
def new? (x : Deed η) : Option Phase := x.after.slots[x.slot]?

/-- The delivery that the slot pulled. -/
def pulled? (x : Deed η) : Option Delivery :=
  match x.move with
  | .pull (.answered (.ok d)) => d
  | _ => none

/-- What the slot told the broker, whatever the reply. -/
def ruling? (x : Deed η) : Option Ruling :=
  match x.move with
  | .settle _ => x.old?.bind Phase.ruling?
  | _ => none

end Deed

namespace Pool

/-- What the slots of a pool did since a worker was started. -/
inductive Run (w : Worker η) : List (Deed η) → Pool η → Prop where
  /-- They did nothing. -/
  | start : Run w [] (Pool.start w).1
  /-- One of them makes a step. -/
  | moved {deeds : List (Deed η)} {p p' : Pool η} {notices : List Notice} (run : Run w deeds p)
    (slot : Nat) (m : Move) (h : p.step slot m = some (p', notices)) :
    Run w (deeds ++ [⟨p, slot, m, p'⟩]) p'
  /-- They are asked to stop. -/
  | stopping {deeds : List (Deed η)} {p : Pool η} (run : Run w deeds p) :
    Run w deeds p.requestStop.1
  /-- The stop is over because all have left. -/
  | joined {deeds : List (Deed η)} {p p' : Pool η} {notices : List Notice} (run : Run w deeds p)
    (h : p.join? = some (p', notices)) : Run w deeds p'
  /-- The stop is over because its time is. -/
  | abandoned {deeds : List (Deed η)} {p : Pool η} (run : Run w deeds p) :
    Run w deeds p.abandon.2.1

/-- The deliveries that slots pulled. -/
def pulled (deeds : List (Deed η)) : List Delivery := deeds.filterMap Deed.pulled?

/-- What slots told the broker. -/
def ruled (deeds : List (Deed η)) : List Ruling := deeds.filterMap Deed.ruling?

/-- What a property of pools needs in order to hold in every run: it holds at the start, a
turn of a slot keeps it, and it does not depend on whether the pool stops. -/
@[elab_as_elim]
theorem Run.induction {w : Worker η}
    {motive : (deeds : List (Deed η)) → (p : Pool η) → Run w deeds p → Prop}
    (start : motive [] (Pool.start w).1 .start)
    (turned : ∀ {deeds p slot f m f' calls counters} (run : Run w deeds p),
      p.slots[slot]? = some f → p.Turn f m f' calls counters →
        ∀ later : Run w (deeds ++ [⟨p, slot, m, p.after slot f' calls counters⟩])
          (p.after slot f' calls counters), motive _ _ run → motive _ _ later)
    (tuned : ∀ {deeds p} (isStopping isOver : Bool) (run : Run w deeds p)
      (later : Run w deeds { p with isStopping, isOver }), motive _ _ run → motive _ _ later)
    {deeds : List (Deed η)} {p : Pool η} (run : Run w deeds p) : motive deeds p run := by
  induction run with
  | start => exact start
  | moved run slot m h ih =>
    have later := run.moved slot m h
    obtain ⟨f, found, f', calls, counters, turn, rfl⟩ := turn_of_step h
    exact turned run found turn later ih
  | @stopping deeds p run ih => exact tuned true p.isOver run run.stopping ih
  | @joined deeds p p' notices run h ih =>
    have later := run.joined h
    unfold join? at h
    split at h <;> cases h
    exact tuned p.isStopping true run later ih
  | @abandoned deeds p run ih => exact tuned p.isStopping true run run.abandoned ih

variable {w : Worker η} {deeds : List (Deed η)} {p : Pool η} {slot : Nat} {f f' : Phase}
  {m : Move} {calls : List Invocation} {counters : Metrics}

/-- A turn replaces the phase of one slot and keeps those of the others. -/
theorem exists_rest (found : p.slots[slot]? = some f) (f' : Phase) :
    ∃ rest, p.slots.Perm (f :: rest) ∧ (p.slots.set slot f').Perm (f' :: rest) := by
  obtain ⟨bound, rfl⟩ := List.getElem?_eq_some_iff.mp found
  exact ⟨p.slots.eraseIdx slot, (List.getElem_cons_eraseIdx_perm bound).symm,
    List.set_perm_cons_eraseIdx bound f'⟩

/-- The slot of a turn is in its new phase. -/
theorem after_self (found : p.slots[slot]? = some f) :
    (p.after slot f' calls counters).slots[slot]? = some f' :=
  List.getElem?_set_self (List.getElem?_eq_some_iff.mp found).1

/-- The other slots are where they were. -/
theorem after_of_ne {other : Nat} (ne : slot ≠ other) :
    (p.after slot f' calls counters).slots[other]? = p.slots[other]? :=
  List.getElem?_set_ne ne

/-- A slot that has started has nothing. -/
theorem eq_ready_of_mem_start (mem : f ∈ (Pool.start w).1.slots) : f = .ready :=
  List.eq_of_mem_replicate mem

/-- What no slot has that is ready is not there at the start. -/
theorem filterMap_start {α : Type} {g : Phase → Option α} (ready : g .ready = none) :
    (Pool.start w).1.slots.filterMap g = [] := by
  refine List.filterMap_eq_nil_iff.mpr fun f mem => ?_
  rw [eq_ready_of_mem_start mem, ready]

/-- A pool keeps its slots. -/
theorem Run.length_slots (run : Run w deeds p) :
    p.slots.length = w.settings.concurrency.toNat := by
  induction run using Run.induction with
  | start => exact List.length_replicate
  | turned run found turn later ih => rw [after, List.length_set, ih]
  | tuned isStopping isOver run later ih => exact ih

/-- A pool keeps what it was started from. -/
theorem Run.start_eq (run : Run w deeds p) :
    p.codec = w.codec ∧ p.registry = w.registry ∧ p.settings = w.settings := by
  induction run using Run.induction with
  | start => exact ⟨rfl, rfl, rfl⟩
  | turned run found turn later ih => exact ih
  | tuned isStopping isOver run later ih => exact ih

/-- What a pool was started from. -/
def worker (p : Pool η) : Worker η := ⟨p.settings, p.codec, p.registry⟩

theorem Run.worker_eq (run : Run w deeds p) : p.worker = w := by
  obtain ⟨codec, registry, settings⟩ := run.start_eq
  rw [worker, codec, registry, settings]

/-- A slot has in its hands what it pulls until it tells the broker of it. -/
theorem Turn.hands (turn : p.Turn f m f' calls counters) (found : p.slots[slot]? = some f)
    (after : Pool η) :
    let x : Deed η := ⟨p, slot, m, after⟩
    f.delivery?.toList ++ x.pulled?.toList =
      x.ruling?.toList.map Ruling.delivery ++ f'.delivery?.toList := by
  have old : (Deed.mk p slot m after).old? = some f := found
  cases turn with
  | checked => split <;> rfl
  | settled => simp [Deed.pulled?, Deed.ruling?, old, Phase.ruling?, Phase.delivery?]
  | settleCrashed => simp [Deed.pulled?, Deed.ruling?, old, Phase.ruling?, Phase.delivery?]
  | _ => rfl

/-- Every message that was pulled was ruled on or is in the hands of a slot. -/
theorem Run.pulled_perm (run : Run w deeds p) :
    (pulled deeds).Perm
      ((ruled deeds).map Ruling.delivery ++ p.slots.filterMap Phase.delivery?) := by
  induction run using Run.induction with
  | start =>
    rw [filterMap_start rfl]
    exact .nil
  | @turned deeds p slot f m f' calls counters run found turn later ih =>
    obtain ⟨rest, before, after⟩ := exists_rest found f'
    have before := before.filterMap Phase.delivery?
    have after := after.filterMap Phase.delivery?
    have hands := turn.hands found (p.after slot f' calls counters)
    simp only [pulled, ruled, List.filterMap_eq_flatMap_toList, List.flatMap_append,
      List.flatMap_cons, List.flatMap_nil, List.append_nil, List.map_append] at ih before after ⊢
    refine List.perm_iff_count.mpr fun d => ?_
    have all := ih.count_eq d
    have slots := before.count_eq d
    have slots' := after.count_eq d
    have own := congrArg (List.count d) hands
    simp only [List.count_append] at all slots slots' own ⊢
    show _ = _ + List.count d ((p.slots.set slot f').flatMap _)
    omega
  | tuned isStopping isOver run later ih => exact ih

/-- A slot has ruled on what it pulled, in this order, except for what it has in its
hands. -/
theorem Run.pulled_of_slot (run : Run w deeds p) (found : p.slots[slot]? = some f) :
    pulled (deeds.filter (·.slot = slot)) =
      (ruled (deeds.filter (·.slot = slot))).map Ruling.delivery ++ f.delivery?.toList := by
  induction run using Run.induction generalizing f with
  | start =>
    rw [eq_ready_of_mem_start (List.mem_of_getElem? found)]
    rfl
  | @turned deeds p slot' f₀ m f' calls counters run found₀ turn later ih =>
    rw [List.filter_append]
    by_cases here : slot' = slot
    · subst here
      rw [after_self found₀] at found
      cases found
      rw [List.filter_cons_of_pos (by simp), List.filter_nil]
      have before := ih found₀
      have hands := turn.hands found₀ (p.after slot' f' calls counters)
      simp only [pulled, ruled, List.filterMap_eq_flatMap_toList, List.flatMap_append,
        List.flatMap_cons, List.flatMap_nil, List.append_nil, List.map_append] at before ⊢
      rw [before, List.append_assoc, hands, List.append_assoc]
    · rw [after_of_ne here] at found
      rw [List.filter_cons_of_neg (by simpa using here), List.filter_nil, List.append_nil]
      exact ih found
  | tuned isStopping isOver run later ih => exact ih found

/-- What a slot has in its hands was pulled. -/
theorem Run.mem_pulled (run : Run w deeds p) {d : Delivery} (found : p.slots[slot]? = some f)
    (has : f.delivery? = some d) : d ∈ pulled deeds := by
  refine run.pulled_perm.mem_iff.mpr (List.mem_append_right _ ?_)
  exact List.mem_filterMap.mpr ⟨f, List.mem_of_getElem? found, has⟩

end Pool

end JobQueue
