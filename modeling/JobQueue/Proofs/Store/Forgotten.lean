import JobQueue.Proofs.Store.Run

/-!
# Messages that are forgotten

A store forgets the records that are outdated, and never takes an identifier
twice.  So a message that was taken has no record exactly if its record was
outdated at some call that forgets (`Run.record?_eq_none_iff`).

That the history alone decides this rests on `Run.unique`: a history leads to one
store only.
-/

namespace JobQueue

open History

/-- Whether the record of a message was outdated when a store forgot its outdated
records. -/
def History.Forgot (h : History) (id : JobId) : Prop :=
  ∃ before e after s cutoff r, h = before ++ e :: after ∧ Run before s ∧
    e.request = .prune cutoff ∧ s.record? id = some r ∧ Store.isOutdated cutoff r

theorem History.Forgot.concat {h : History} {id : JobId} (forgot : Forgot h id) (e : Exchange) :
    Forgot (h ++ [e]) id := by
  obtain ⟨before, e', after, s, cutoff, r, rfl, rest⟩ := forgot
  exact ⟨before, e', after ++ [e], s, cutoff, r, by simp, rest⟩

namespace Store

variable {s : Store} {id : JobId} {q : Request}

/-- Where there is no record, there is none until the message is taken. -/
theorem record?_perform_of_none (none : s.record? id = none)
    (fresh : ∀ m now, q ≠ .enqueue id m now) : (s.perform q).store.record? id = .none := by
  have effect := s.perform_effect q
  generalize s.perform q = step at effect ⊢
  have others : ∀ {other : JobId} {r : Record}, s.record? other = some r → id ≠ other := by
    rintro other r hr rfl
    rw [none] at hr
    cases hr
  cases effect with
  | refused => exact none
  | enqueued isOpen id' m now =>
    have hne : id' ≠ id := by
      rintro rfl
      exact fresh m now rfl
    rw [record?_enqueued, if_neg hne, none, Option.or_none]
  | nothing => exact none
  | leased isOpen lease next found ready =>
    rw [record?_handedOut found, if_neg (others found)]
    exact none
  | settled isOpen v now found held =>
    rw [record?_settled found, if_neg (others found)]
    exact none
  | pruned cutoff =>
    rw [record?_eq_none_iff] at none ⊢
    intro mem
    exact none ((List.filter_sublist.map _).subset mem)
  | closed => exact none

/-- A record goes only when the outdated ones are forgotten and it is one of them. -/
theorem isOutdated_of_perform {r : Record} (nodup : (s.records.map Record.id).Nodup)
    (found : s.record? id = some r) (gone : (s.perform q).store.record? id = none) :
    ∃ cutoff, q = .prune cutoff ∧ isOutdated cutoff r := by
  have effect := s.perform_effect q
  generalize s.perform q = step at effect gone
  cases effect with
  | refused =>
    rw [found] at gone
    cases gone
  | enqueued =>
    rw [record?_enqueued, found] at gone
    cases gone
  | nothing =>
    rw [found] at gone
    cases gone
  | leased isOpen lease next found' ready =>
    rw [record?_handedOut found', found] at gone
    split at gone <;> cases gone
  | settled isOpen v now found' held =>
    rw [record?_settled found', found] at gone
    split at gone <;> cases gone
  | pruned cutoff =>
    rw [record?_prune nodup, found] at gone
    exact ⟨cutoff, rfl, by simpa [Option.filter] using gone⟩
  | closed =>
    rw [record?_close, found] at gone
    cases gone

end Store

namespace Run

variable {h : History} {s : Store}

/-- A history leads to one store only. -/
theorem unique {s' : Store} (run : Run h s) (run' : Run h s') : s = s' := by
  induction run generalizing s' with
  | start =>
    generalize eq : ([] : History) = h at run'
    cases run' with
    | start => rfl
    | call => simp at eq
  | @call h s run q fresh ih =>
    generalize eq : h ++ [s.exchange q] = h' at run'
    cases run' with
    | start => simp at eq
    | @call h' s' run' q' fresh' =>
      obtain ⟨rfl, last⟩ := List.append_inj' eq rfl
      cases ih run'
      obtain ⟨rfl, -⟩ := Exchange.mk.inj (List.cons.inj last).1
      rfl

/-- Of the messages that were taken, those are forgotten that have no record. -/
theorem record?_eq_none_iff (run : Run h s) {id : JobId} (taken : id ∈ ids h) :
    s.record? id = none ↔ Forgot h id := by
  constructor
  · intro gone
    induction run with
    | start => cases taken
    | @call h s run q fresh ih =>
      cases hr : s.record? id with
      | some r =>
        obtain ⟨cutoff, rfl, old⟩ := Store.isOutdated_of_perform run.ids_records.1 hr gone
        exact ⟨h, _, [], s, cutoff, r, rfl, run, rfl, hr, old⟩
      | none =>
        by_cases before : id ∈ ids h
        · exact (ih before hr).concat _
        · rw [ids_concat, List.mem_append, or_iff_right before] at taken
          obtain ⟨⟨_, m, now⟩, hx, rfl⟩ := Option.map_eq_some_iff.mp (Option.mem_toList.mp taken)
          rw [Store.record?_of_enqueued?_exchange hx hr] at gone
          cases gone
  · rintro ⟨before, e, after, s₀, cutoff, r, rfl, run₀, prune, found, old⟩
    generalize eq : before ++ e :: after = h at run taken
    clear taken
    induction run generalizing after with
    | start => simp at eq
    | @call h s run q fresh ih =>
      rcases concat_cases eq.symm with ⟨rfl, rfl, -⟩ | ⟨rest, -, rfl⟩
      · cases run.unique run₀
        have eq : q = .prune cutoff := prune
        subst eq
        show (Store.prune _ cutoff).1.record? id = none
        rw [Store.record?_prune run.ids_records.1, found]
        simp [Option.filter, old]
      · refine Store.record?_perform_of_none (ih rest rfl) ?_
        rintro m now rfl
        refine fresh ?_
        rw [ids_append]
        exact List.mem_append_left _ (run₀.id_mem_of_record? found)

end Run

end JobQueue
