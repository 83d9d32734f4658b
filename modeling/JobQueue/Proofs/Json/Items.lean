import JobQueue.Proofs.Json.Value

/-!
# Items and fields one by one

Arrays and objects are read by loops over what stands between their brackets.  Each loop is
stated here as one turn of it and the rest (`Json.items_cons_iff`, `Json.fields_cons_iff`), so
that two readers of the same text can be compared turn by turn.
-/

namespace JobQueue

namespace Json

variable {α : Type}

/-! ## Marks -/

theorem colon_iff {s rest : Bytes} : colon s = .ok rest ↔ skipGap s = 0x3A :: rest := by
  constructor
  · intro read
    simp only [colon] at read
    split at read
    · cases read
    next gap =>
      split at read
      next mark =>
        cases read
        rw [gap, mark]
      next => cases read
  · intro gap
    simp only [colon, gap, if_true]

theorem endList_iff {s rest : Bytes} : endList s = .ok rest ↔ skipGap s = 0x5D :: rest := by
  constructor
  · intro close
    simp only [endList] at close
    split at close
    · cases close
    next gap =>
      split at close
      next bracket =>
        cases close
        rw [gap, bracket]
      next =>
        split at close
        · split at close
          · cases close
          · cases close
        · cases close
  · intro gap
    simp only [endList, gap, if_true]

theorem nextItem_end_iff {first : Bool} {s t : Bytes} :
    nextItem first s = .ok (false, t) ↔ ∃ rest, t = 0x5D :: rest ∧ endList s = .ok rest := by
  simp only [endList_iff]
  constructor
  · intro next
    simp only [nextItem] at next
    split at next
    · cases next
    next gap =>
      split at next
      next bracket =>
        cases next
        exact ⟨_, by rw [bracket], by rw [gap, bracket]⟩
      next =>
        repeat' split at next
        all_goals cases next
  · rintro ⟨rest, rfl, gap⟩
    simp only [nextItem, gap, if_true]

theorem endObject_iff {s rest : Bytes} : endObject s = .ok rest ↔ skipGap s = 0x7D :: rest := by
  constructor
  · intro close
    simp only [endObject] at close
    split at close
    · cases close
    next gap =>
      split at close
      next brace =>
        cases close
        rw [gap, brace]
      next => cases close
  · intro gap
    simp only [endObject, gap, if_true]

theorem nextKey_end_iff {first : Bool} {s t : Bytes} :
    nextKey first s = .ok (false, t) ↔ ∃ rest, t = 0x7D :: rest ∧ endObject s = .ok rest := by
  simp only [endObject_iff]
  constructor
  · intro next
    simp only [nextKey] at next
    split at next
    · cases next
    next gap =>
      split at next
      next brace =>
        cases next
        exact ⟨_, by rw [brace], by rw [gap, brace]⟩
      next =>
        repeat' split at next
        all_goals cases next
  · rintro ⟨rest, rfl, gap⟩
    simp only [nextKey, gap, if_true]

theorem endText_iff {s : Bytes} : endText s = .ok () ↔ skipGap s = [] := by
  simp only [endText]
  split <;> simp_all

/-! ## Arrays -/

theorem items_nil_iff {item : Reader α} {n : Nat} {first : Bool} {s rest : Bytes} :
    items item (n + 1) first s = .ok ([], rest) ↔ nextItem first s = .ok (false, rest) := by
  simp only [items]
  split
  next next => simp [next]
  next next => simp [next]
  next next =>
    simp only [next, Except.ok.injEq, Prod.mk.injEq, Bool.true_eq_false, false_and, iff_false]
    repeat' split
    all_goals simp

theorem items_cons_iff {item : Reader α} {n : Nat} {first : Bool} {s rest : Bytes} {v : α}
    {vs : List α} :
    items item (n + 1) first s = .ok (v :: vs, rest) ↔
      ∃ t u, nextItem first s = .ok (true, t) ∧ item t = .ok (v, u) ∧
        items item n false u = .ok (vs, rest) := by
  constructor
  · intro read
    simp only [items] at read
    split at read
    · cases read
    · cases read
    next next =>
      split at read
      · cases read
      next one =>
        split at read
        · cases read
        next more =>
          cases read
          exact ⟨_, _, next, one, more⟩
  · rintro ⟨t, u, next, one, more⟩
    simp only [items, next, one, more]

theorem list_iff {item : Reader α} {s rest : Bytes} {vs : List α} :
    list item s = .ok (vs, rest) ↔
      ∃ u, items item (s.length + 1) true s = .ok (vs, u) ∧ endList u = .ok rest := by
  constructor
  · intro read
    simp only [list] at read
    split at read
    · cases read
    next all =>
      split at read
      · cases read
      next close =>
        cases read
        exact ⟨_, all, close⟩
  · rintro ⟨u, all, close⟩
    simp only [list, all, close]

/-! ## Objects -/

/-- Whether a text goes on with a key and a colon, behind which `w` is left. -/
def KeyAt (first : Bool) (s : Bytes) (name : String) (w : Bytes) : Prop :=
  ∃ t u, nextKey first s = .ok (true, t) ∧ textTail t = .ok (name, u) ∧ colon u = .ok w

theorem KeyAt.inj {first : Bool} {s w w' : Bytes} {name name' : String}
    (key : KeyAt first s name w) (key' : KeyAt first s name' w') : name = name' ∧ w = w' := by
  obtain ⟨t, u, next, text, colon⟩ := key
  obtain ⟨t', u', next', text', colon'⟩ := key'
  cases next.symm.trans next'
  cases text.symm.trans text'
  cases colon.symm.trans colon'
  exact ⟨rfl, rfl⟩

theorem KeyAt.not_end {first : Bool} {s w rest : Bytes} {name : String}
    (key : KeyAt first s name w) : nextKey first s ≠ .ok (false, rest) := by
  obtain ⟨t, u, next, -⟩ := key
  rw [next]
  exact fun eq => by cases eq

theorem fields_nil_iff {value : Reader α} {n : Nat} {first : Bool} {s rest : Bytes} :
    fields value (n + 1) first s = .ok ([], rest) ↔ nextKey first s = .ok (false, rest) := by
  constructor
  · intro read
    simp only [fields] at read
    repeat' split at read
    all_goals first
      | (cases read; done)
      | (cases read; assumption)
  · intro next
    simp only [fields, next]

theorem fields_cons_iff {value : Reader α} {n : Nat} {first : Bool} {s rest : Bytes}
    {f : String × α} {fs : List (String × α)} :
    fields value (n + 1) first s = .ok (f :: fs, rest) ↔
      ∃ w u, KeyAt first s f.1 w ∧ value w = .ok (f.2, u) ∧
        fields value n false u = .ok (fs, rest) := by
  constructor
  · intro read
    simp only [fields] at read
    split at read
    · cases read
    · cases read
    next next =>
      split at read
      · cases read
      next text =>
        split at read
        · cases read
        next colon =>
          split at read
          · cases read
          next one =>
            split at read
            · cases read
            next more =>
              cases read
              exact ⟨_, _, ⟨_, _, next, text, colon⟩, one, more⟩
  · rintro ⟨w, u, ⟨t, x, next, text, colon⟩, one, more⟩
    simp only [fields, next, text, colon, one, more]

theorem object_iff {value : Reader α} {s rest : Bytes} {fs : List (String × α)} :
    object value s = .ok (fs, rest) ↔
      ∃ u, fields value (s.length + 1) true s = .ok (fs, u) ∧ endObject u = .ok rest := by
  constructor
  · intro read
    simp only [object] at read
    split at read
    · cases read
    next all =>
      split at read
      · cases read
      next close =>
        cases read
        exact ⟨_, all, close⟩
  · rintro ⟨u, all, close⟩
    simp only [object, all, close]

/-! ## Whole texts -/

theorem whole_iff {reader : Reader α} {s : Bytes} {v : α} :
    whole reader s = .ok v ↔ ∃ rest, reader s = .ok (v, rest) ∧ endText rest = .ok () := by
  constructor
  · intro read
    simp only [whole] at read
    split at read
    · cases read
    next inner =>
      obtain ⟨⟨⟩, done, ⟨⟩⟩ := map_eq_ok read
      exact ⟨_, inner, done⟩
  · rintro ⟨rest, inner, done⟩
    simp only [whole, inner, done]
    rfl

end Json

end JobQueue
