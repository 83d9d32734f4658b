import JobQueue.Proofs.Pool.Handlings
import JobQueue.Proofs.Pool.Registrations
import JobQueue.Proofs.Store.Run
import Mathlib.Data.List.TakeWhile

/-!
# One delivery, one verdict

A slot that pulls a delivery goes on with it along its line of the table of endings
(`Ends`), whatever other slots do in between (`Pool.Run.pursues`).  And whatever the
handler and the broker do, it has a next step (`Pool.exists_step`) until it has told the
broker, which is the end of the line (`Pool.Run.finishes`).
-/

namespace JobQueue

variable {η : Type}

namespace Pool

variable {w : Worker η} {deeds : List (Deed η)} {p : Pool η} {slot : Nat} {f f' : Phase}
  {m : Move} {calls : List Invocation} {counters : Metrics} {d : Delivery} {a : Account η}

/-! ## Interleavings -/

/-- What a slot did before it pulled again. -/
def tenure (slot : Nat) (later : List (Deed η)) : List (Deed η) :=
  (later.filter (·.slot = slot)).takeWhile (·.pulled?.isNone)

/-- How far a slot is with a delivery, by what it did since it pulled it: it goes on with
it, or it has pulled again. -/
inductive Pursues (w : Worker η) (d : Delivery) (p : Pool η) (slot : Nat) :
    List (Deed η) → Prop where
  | goesOn {own : List (Deed η)} {f : Phase} (own_pulled : ∀ x ∈ own, x.pulled? = none)
    (found : p.slots[slot]? = some f) (deals : Deals w d f (Account.of own)) :
    Pursues w d p slot own
  | again {own : List (Deed η)} {z : Deed η} (own_pulled : ∀ x ∈ own, x.pulled? = none)
    (pulls : z.pulled? ≠ none) (settles : Settles w d (Account.of own)) (more : List (Deed η)) :
    Pursues w d p slot (own ++ z :: more)

theorem Pursues.congr {p' : Pool η} {own : List (Deed η)} (pursues : Pursues w d p slot own)
    (same : p'.slots[slot]? = p.slots[slot]?) : Pursues w d p' slot own := by
  cases pursues with
  | goesOn none found deals => exact .goesOn none (same.trans found) deals
  | again none pulls settles more => exact .again none pulls settles more

/-- A turn of the slot goes on with the delivery, or pulls again. -/
theorem Pursues.turned {own : List (Deed η)} (pursues : Pursues w d p slot own)
    (run : Run w deeds p) (turn : p.Turn f m f' calls counters)
    (found : p.slots[slot]? = some f) :
    Pursues w d (p.after slot f' calls counters) slot
      (own ++ [⟨p, slot, m, p.after slot f' calls counters⟩]) := by
  cases pursues with
  | again none pulls settles more =>
    rw [List.append_assoc, List.cons_append]
    exact .again none pulls settles _
  | goesOn none found' deals =>
    rw [found] at found'
    cases found'
    cases pulls : (Deed.mk p slot m (p.after slot f' calls counters)).pulled? with
    | none =>
      refine .goesOn ?_ (after_self found) ?_
      · intro x mem
        rcases List.mem_append.mp mem with mem | mem
        · exact none x mem
        · cases List.mem_singleton.mp mem
          exact pulls
      · rw [Account.of_append]
        exact turn.deals run found pulls deals
    | some d' =>
      refine .again none (by simp [pulls]) (deals.settles ?_) []
      -- only a slot with nothing in its hands pulls
      cases turn with
      | pulled => rfl
      | _ => cases pulls

theorem Run.pursues (run : Run w deeds p) {before rest : List (Deed η)} {y : Deed η}
    (cut : deeds = before ++ y :: rest) (pulled : y.pulled? = some d) :
    Pursues w d p y.slot (rest.filter (·.slot = y.slot)) := by
  induction run using Run.induction generalizing rest with
  | start => exact absurd cut (by simp)
  | @turned deeds p slot f m f' calls counters run found turn later ih =>
    rcases concat_cases cut with ⟨rfl, rfl, rfl⟩ | ⟨rest, rfl, rfl⟩
    · refine .goesOn (fun x mem => absurd mem List.not_mem_nil) (after_self found) ?_
      cases turn with
      | pulled =>
        cases pulled
        exact .holding
      | _ => cases pulled
    · have before := ih rfl
      rw [List.filter_append]
      by_cases same : slot = y.slot
      · subst same
        rw [List.filter_cons_of_pos (by simp)]
        exact before.turned run turn found
      · rw [List.filter_cons_of_neg (by simpa using same), List.filter_nil, List.append_nil]
        exact before.congr (after_of_ne same)
  | tuned isStopping isOver run later ih => exact (ih cut).congr rfl

/-- What a slot has done about a delivery is either all of it, or it is still at it and has
told the broker nothing. -/
theorem Run.settles (run : Run w deeds p) {before rest : List (Deed η)} {y : Deed η}
    (cut : deeds = before ++ y :: rest) (pulled : y.pulled? = some d) :
    (ruled (tenure y.slot rest) = [] ∧
        ∃ f, p.slots[y.slot]? = some f ∧ f.delivery? = some d) ∨
      Settles w d (Account.of (tenure y.slot rest)) := by
  have pursues := run.pursues cut pulled
  unfold tenure
  generalize rest.filter (·.slot = y.slot) = own at pursues
  cases pursues with
  | @goesOn own f none found deals =>
    rw [List.takeWhile_eq_self_iff.mpr fun x mem => by rw [none x mem]; rfl]
    cases has : f.delivery? with
    | none => exact .inr (deals.settles has)
    | some d' =>
      obtain ⟨same, none⟩ := deals.rulings (by simp [has])
      exact .inl ⟨none, f, found, same⟩
  | @again own z none pulls settles more =>
    rw [List.takeWhile_append_of_pos fun x mem => by rw [none x mem]; rfl,
      List.takeWhile_cons_of_neg (by simpa using pulls), List.append_nil]
    exact .inr settles

end Pool

/-! ## Progress -/

/-- What happens to a slot while it is at a message. -/
structure Surroundings where
  /-- How the handler ends. -/
  ending : Ending
  /-- When it ends. -/
  now : Instant
  /-- How the handler ends when it learns that the job failed for good. -/
  hook : Ending
  /-- What the broker replies. -/
  reply : Reply Unit

/-- Whether a move is one that its surroundings let a slot make. -/
def Surroundings.Allows (s : Surroundings) : Move → Prop
  | .finish ending now => ending = s.ending ∧ now = s.now
  | .finishHook ending => ending = s.hook
  | .settle reply => reply = s.reply
  | .pull _ => False
  | _ => True

/-- The number of steps that a slot needs at most to be done with its message. -/
def Phase.left : Phase → Nat
  | holding _ => 7
  | counted _ _ => 6
  | calling _ => 5
  | running _ _ => 4
  | hooking _ _ => 3
  | hooked _ _ _ => 2
  | settling _ _ _ _ => 1
  | _ => 0

namespace Pool

variable {w : Worker η} {deeds : List (Deed η)} {p : Pool η} {slot : Nat} {f f' : Phase}
  {m : Move} {calls : List Invocation} {counters : Metrics} {d : Delivery} {a : Account η}

theorem Turn.left_lt (turn : p.Turn f m f' calls counters) (has : f.delivery? = some d) :
    f'.left < f.left := by
  cases turn with
  | checked | pulled | nothing | failed | pullCrashed | woken => cases has
  | _ => simp [Phase.left]

/-- A slot with a message has a next step, whatever its surroundings; only a handler without
a limit is not cut off. -/
theorem exists_step (s : Surroundings) (found : p.slots[slot]? = some f)
    (has : f.delivery? = some d)
    (limit : ∀ t call, f = .running t call → s.ending = .timedOut → t.context.timeout.isSome) :
    ∃ m p' notices, s.Allows m ∧ p.step slot m = some (p', notices) := by
  have step {m : Move} (allowed : s.Allows m) (makes : (p.step slot m).isSome) :
      ∃ m p' notices, s.Allows m ∧ p.step slot m = some (p', notices) := by
    obtain ⟨r, eq⟩ := Option.isSome_iff_exists.mp makes
    exact ⟨m, r.1, r.2, allowed, eq⟩
  cases f with
  | holding => exact step (m := .look) trivial (by simp [Pool.step, found])
  | counted => exact step (m := .raise) trivial (by simp [Pool.step, found])
  | calling => exact step (m := .call) trivial (by simp [Pool.step, found])
  | running t call =>
    refine step (m := .finish s.ending s.now) ⟨rfl, rfl⟩ ?_
    simp only [Pool.step, found]
    split
    · next unlimited cut =>
      have limited := limit t call rfl cut
      rw [unlimited] at limited
      cases limited
    · rfl
  | hooking => exact step (m := .callHook) trivial (by simp [Pool.step, found])
  | hooked => exact step (m := .finishHook s.hook) rfl (by simp [Pool.step, found])
  | settling =>
    refine step (m := .settle s.reply) rfl ?_
    cases s.reply <;> simp [Pool.step, found]
  | _ => cases has

/-- A slot that is at a message comes to its end by itself, whatever its surroundings. -/
theorem Run.finishes (run : Run w deeds p) (found : p.slots[slot]? = some f)
    (deals : Deals w d f a) (s : Surroundings)
    (limit : s.ending = .timedOut → (w.limit? d).isSome) :
    ∃ steps p', Run w (deeds ++ steps) p' ∧ (∀ x ∈ steps, x.slot = slot ∧ s.Allows x.move) ∧
      Settles w d (a ++ Account.of steps) := by
  induction left : f.left using Nat.strong_induction_on generalizing f a deeds p with
  | _ n ih =>
    cases has : f.delivery? with
    | none =>
      refine ⟨[], p, by rwa [List.append_nil], fun _ mem => absurd mem List.not_mem_nil, ?_⟩
      rw [show Account.of [] = ({} : Account η) from rfl, Account.append_empty]
      exact deals.settles has
    | some d' =>
      obtain ⟨m, p', notices, allowed, h⟩ := exists_step s found has (by
        rintro t call rfl cut
        have suits := (run.knows _ (List.mem_of_getElem? found)).1
        cases deals with
        | running about =>
          rw [run.context_eq suits, about]
          exact limit cut
        | finished empty => cases empty)
      obtain ⟨f₀, found₀, f', calls, counters, turn, rfl⟩ := turn_of_step h
      rw [found] at found₀
      cases found₀
      have stays : (Deed.mk p slot m (p.after slot f' calls counters)).pulled? = none := by
        cases m <;> first | rfl | cases allowed
      have next := turn.deals run found stays deals
      obtain ⟨steps, p', later, own, settles⟩ :=
        ih _ (left ▸ turn.left_lt has) (run.moved slot m h) (after_self found) next rfl
      refine ⟨_ :: steps, p', by rwa [List.append_assoc] at later, ?_, ?_⟩
      · intro x mem
        rcases List.mem_cons.mp mem with rfl | mem
        · exact ⟨rfl, allowed⟩
        · exact own x mem
      · rw [Account.append_assoc, ← Account.of_append] at settles
        exact settles

/-! ## One verdict -/

/-- Whether each delivery in a run of a pool gets one verdict, by what its handler does. -/
structure OneVerdict (w : Worker η) (deeds : List (Deed η)) (p : Pool η) : Prop where
  /-- What a slot did after it pulled a delivery, before it pulled again, is all that there
  is to do about it, or it has it still and has told the broker nothing. -/
  settles : ∀ (before rest : List (Deed η)) (y : Deed η) (d : Delivery),
    deeds = before ++ y :: rest → y.pulled? = some d →
      (ruled (tenure y.slot rest) = [] ∧
          ∃ f, p.slots[y.slot]? = some f ∧ f.delivery? = some d) ∨
        Settles w d (Account.of (tenure y.slot rest))
  /-- A slot that takes up a delivery gets to the end, whatever the handler and the broker
  do. -/
  finishes : ∀ (slot : Nat) (d : Delivery), p.slots[slot]? = some (.holding d) →
    ∀ s : Surroundings, (s.ending = .timedOut → (w.limit? d).isSome) →
      ∃ steps p', Run w (deeds ++ steps) p' ∧ (∀ x ∈ steps, x.slot = slot ∧ s.Allows x.move) ∧
        Settles w d (Account.of steps)

/-- Two handlers that come for the same tag. -/
def exampleRoutes : List (JobKind × String) := [(.keyed, "first"), (.keyed, "second")]

/-- A worker with one slot for which they come. -/
def exampleRegistered : Worker String :=
  .registering { settings := { Settings.default with concurrency := 1 }, codec := .json }
    exampleRoutes

/-- The last attempt at a message that says another type than its envelope. -/
def exampleMislabelled : Delivery where
  job := ⟨"1"⟩
  message :=
    { type := "other:type", queue := "default", maxRetries := 1, processAt := .epoch
      timeout := some (.ofSeconds 1)
      envelope := Codec.json.encode { type := "bad:keys", data := .obj [("pairs", .arr [])] } }
  attempt := 1
  lease := ⟨"x"⟩

end Pool

end JobQueue
