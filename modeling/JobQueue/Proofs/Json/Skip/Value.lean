import Mathlib.Data.List.DropRight
import JobQueue.Proofs.Json.Items
import JobQueue.Proofs.Json.Skip.Plain

/-!
# Values that are skipped

Every value that is read is skipped up to the same place, however deep its brackets
nest (`Json.value_skips`).  The reader of values recurses into an array or an object;
the skipper goes on in one loop and keeps a list of the brackets that are open.  So
the statement is about any such list: to skip a value with brackets open is to go on
behind it with the same brackets open (`Json.Skips`), and to skip what is left of the
innermost bracket is to go on behind it with the other ones (`Json.Closes`).

The loop counts its steps.  Two of them are enough for each byte that is left, and
both carry that from one value to the next.
-/

namespace JobQueue

namespace Json

theorem skipGap_append {s u : Bytes} {b : UInt8} (next : skipGap s = b :: u) (t : Bytes) :
    skipGap (s ++ t) = b :: (u ++ t) := by
  rw [skipGap, List.dropWhile_append, ← skipGap, next]
  rfl

theorem skipGap_length (s : Bytes) : (skipGap s).length ≤ s.length :=
  (List.dropWhile_suffix _).length_le

theorem skipGap_skipGap (s : Bytes) : skipGap (skipGap s) = skipGap s :=
  List.dropWhile_idempotent isGap s

theorem skipIn_skipGap (n : Nat) (opened : List Bracket) (s : Bytes) :
    skipIn n opened (skipGap s) = skipIn n opened s := by
  cases n with
  | zero => rfl
  | succ n => simp only [skipIn, skipGap_skipGap]

/-! ## Values -/

/-- Whether skipping takes a value off a text, whatever brackets are open, with as many steps
to spare as the rest of the text may need. -/
structure Skips (s rest : Bytes) : Prop where
  shorter : rest.length < s.length
  passes : ∀ n opened, 2 * s.length + 1 ≤ n →
    ∃ m, 2 * rest.length + 2 ≤ m ∧ skipIn n opened s = skipRest m true opened rest

/-- A value that is taken off is skipped. -/
theorem Skips.skipValue {s rest : Bytes} (skips : Skips s rest) : skipValue s = .ok rest := by
  obtain ⟨m, room, eq⟩ := skips.passes (2 * s.length + 2) [] (Nat.le_succ _)
  obtain ⟨m, rfl⟩ := Nat.exists_eq_add_one_of_ne_zero (show m ≠ 0 by omega)
  rw [Json.skipValue, eq, skipRest]

theorem skips_scalar {s t rest : Bytes} {b : UInt8} {v : Json} (next : skipGap s = b :: t)
    (noList : b ≠ 0x5B) (noObject : b ≠ 0x7B) (read : scalar b t = .ok (v, rest)) :
    Skips s rest := by
  have skip := scalar_skipped read
  have short := (skipScalar_extends b skip).1
  have long := skipGap_length s
  rw [next, List.length_cons] at long
  refine ⟨by omega, fun n opened room => ?_⟩
  obtain ⟨n, rfl⟩ := Nat.exists_eq_add_one_of_ne_zero (show n ≠ 0 by omega)
  refine ⟨n, by omega, ?_⟩
  simp only [skipIn, next, if_neg noList, if_neg noObject, skip]

/-! ## Brackets -/

/-- Whether skipping takes off a text what is left of the innermost open bracket, with as many
steps to spare as the rest of the text may need. -/
structure Closes (bracket : Bracket) (afterItem : Bool) (s rest : Bytes) : Prop where
  shorter : rest.length < s.length
  passes : ∀ n opened, 2 * s.length + 2 ≤ n →
    ∃ m, 2 * rest.length + 2 ≤ m ∧
      skipRest n afterItem (bracket :: opened) s = skipRest m true opened rest

section Brackets

variable {bracket : Bracket} {afterItem : Bool} {s rest : Bytes}

theorem Closes.close (gap : skipGap s = bracket.closing :: rest) :
    Closes bracket afterItem s rest := by
  have long := skipGap_length s
  rw [gap, List.length_cons] at long
  refine ⟨by omega, fun n opened room => ?_⟩
  obtain ⟨n, rfl⟩ := Nat.exists_eq_add_one_of_ne_zero (show n ≠ 0 by omega)
  refine ⟨n, by omega, ?_⟩
  simp only [skipRest, gap, if_true]

/-- A value is skipped, and what is left of the bracket behind it. -/
theorem Closes.item {t u : Bytes} (near : t.length ≤ s.length)
    (step : ∀ n opened, skipRest (n + 1) afterItem (bracket :: opened) s =
      skipIn n (bracket :: opened) t)
    (skips : Skips t u) (later : Closes bracket true u rest) :
    Closes bracket afterItem s rest := by
  have short := skips.shorter
  have short' := later.shorter
  refine ⟨by omega, fun n opened room => ?_⟩
  obtain ⟨n, rfl⟩ := Nat.exists_eq_add_one_of_ne_zero (show n ≠ 0 by omega)
  obtain ⟨m, room', pass⟩ := skips.passes n (bracket :: opened) (by omega)
  obtain ⟨m', room'', pass'⟩ := later.passes m opened room'
  exact ⟨m', room'', by rw [step, pass, pass']⟩

/-- A bracket and what it holds are skipped as a value. -/
theorem Closes.skips {t : Bytes} {b : UInt8} (gap : skipGap s = b :: t)
    (step : ∀ n opened, skipIn (n + 1) opened s = skipRest n false (bracket :: opened) t)
    (closes : Closes bracket false t rest) : Skips s rest := by
  have long := skipGap_length s
  rw [gap, List.length_cons] at long
  have short := closes.shorter
  refine ⟨by omega, fun n opened room => ?_⟩
  obtain ⟨n, rfl⟩ := Nat.exists_eq_add_one_of_ne_zero (show n ≠ 0 by omega)
  obtain ⟨m, room', pass⟩ := closes.passes n opened (by omega)
  exact ⟨m, room', by rw [step, pass]⟩

end Brackets

/-! ### Arrays -/

theorem skipRest_item {first : Bool} {s t : Bytes} (next : nextItem first s = .ok (true, t)) :
    t.length ≤ s.length ∧ ∀ n opened,
      skipRest (n + 1) (!first) (.square :: opened) s = skipIn n (.square :: opened) t := by
  simp only [nextItem] at next
  split at next
  · cases next
  next b u gap =>
    have long := skipGap_length s
    rw [gap, List.length_cons] at long
    split at next
    · cases next
    next bracket =>
      split at next
      next isFirst =>
        cases next
        refine ⟨long, fun n opened => ?_⟩
        simp [skipRest, gap, Bracket.closing, bracket, isFirst]
      next isLater =>
        split at next
        next comma =>
          split at next
          · cases next
          next c w gap' =>
            split at next
            · cases next
            next =>
              cases next
              have long' := skipGap_length u
              rw [gap'] at long'
              refine ⟨by omega, fun n opened => ?_⟩
              rw [← gap', skipIn_skipGap]
              simp [skipRest, gap, Bracket.closing, isLater, comma]
        next => cases next

/-- Items that are read are skipped with the closing bracket behind them. -/
theorem items_skipped {α : Type} {item : Reader α}
    (skips : ∀ {s v rest}, item s = .ok (v, rest) → Skips s rest) {k : Nat} {first : Bool}
    {s rest : Bytes} {vs : List α} (read : items item k first s = .ok (vs, rest)) :
    ∃ t, rest = 0x5D :: t ∧ Closes .square (!first) s t := by
  induction k generalizing first s vs with
  | zero => cases read
  | succ k ih =>
    cases vs with
    | nil =>
      obtain ⟨t, eq, close⟩ := nextItem_end_iff.mp (items_nil_iff.mp read)
      exact ⟨t, eq, .close (endList_iff.mp close)⟩
    | cons v vs =>
      obtain ⟨_, _, next, one, more⟩ := items_cons_iff.mp read
      obtain ⟨near, step⟩ := skipRest_item next
      obtain ⟨t, eq, later⟩ := ih more
      exact ⟨t, eq, .item near step (skips one) later⟩

theorem skips_list {α : Type} {item : Reader α}
    (skips : ∀ {s v rest}, item s = .ok (v, rest) → Skips s rest) {s t rest : Bytes} {vs : List α}
    (gap : skipGap s = 0x5B :: t) (read : list item t = .ok (vs, rest)) : Skips s rest := by
  obtain ⟨u, all, close⟩ := list_iff.mp read
  obtain ⟨r, rfl, closes⟩ := items_skipped skips all
  cases (endList_written r).symm.trans close
  exact closes.skips gap fun n opened => by simp [skipIn, gap]

/-! ### Objects -/

theorem colon_length {s rest : Bytes} (read : colon s = .ok rest) : rest.length < s.length := by
  have long := skipGap_length s
  rw [colon_iff.mp read, List.length_cons] at long
  omega

/-- A key that is read is skipped with its colon. -/
theorem skipKey_of_read {s t u rest : Bytes} {name : String} (quote : skipGap s = quoteByte :: t)
    (key : textTail t = .ok (name, u)) (colon : colon u = .ok rest) : skipKey s = .ok rest := by
  simp only [skipKey, quote, if_true, textTail_skipped key, colon]

theorem skipRest_field {first : Bool} {s t u w : Bytes} {name : String}
    (next : nextKey first s = .ok (true, t)) (key : textTail t = .ok (name, u))
    (colon : colon u = .ok w) :
    w.length < s.length ∧ ∀ n opened,
      skipRest (n + 1) (!first) (.curly :: opened) s = skipIn n (.curly :: opened) w := by
  have short := skipText_length (textTail_skipped key)
  have short' := colon_length colon
  simp only [nextKey] at next
  split at next
  · cases next
  next b r gap =>
    have long := skipGap_length s
    rw [gap, List.length_cons] at long
    split at next
    · cases next
    next brace =>
      split at next
      next isFirst =>
        split at next
        next quote =>
          cases next
          have self : skipGap (b :: t) = quoteByte :: t := by
            rw [← gap, skipGap_skipGap, gap, quote]
          refine ⟨by omega, fun n opened => ?_⟩
          simp [skipRest, gap, Bracket.closing, brace, isFirst, skipKey_of_read self key colon]
        next => cases next
      next isLater =>
        split at next
        next comma =>
          split at next
          · cases next
          next c x gap' =>
            split at next
            next quote =>
              cases next
              have long' := skipGap_length r
              rw [gap', List.length_cons] at long'
              rw [quote] at gap'
              refine ⟨by omega, fun n opened => ?_⟩
              simp [skipRest, gap, Bracket.closing, isLater, comma,
                skipKey_of_read gap' key colon]
            next => cases next
        next => cases next

/-- Fields that are read are skipped with the closing brace behind them. -/
theorem fields_skipped {α : Type} {value : Reader α}
    (skips : ∀ {s v rest}, value s = .ok (v, rest) → Skips s rest) {k : Nat} {first : Bool}
    {s rest : Bytes} {fs : List (String × α)} (read : fields value k first s = .ok (fs, rest)) :
    ∃ t, rest = 0x7D :: t ∧ Closes .curly (!first) s t := by
  induction k generalizing first s fs with
  | zero => cases read
  | succ k ih =>
    cases fs with
    | nil =>
      obtain ⟨t, eq, close⟩ := nextKey_end_iff.mp (fields_nil_iff.mp read)
      exact ⟨t, eq, .close (endObject_iff.mp close)⟩
    | cons f fs =>
      obtain ⟨_, _, ⟨_, _, next, key, colon⟩, one, more⟩ := fields_cons_iff.mp read
      obtain ⟨near, step⟩ := skipRest_field next key colon
      obtain ⟨t, eq, later⟩ := ih more
      exact ⟨t, eq, .item (Nat.le_of_lt near) step (skips one) later⟩

theorem skips_object {α : Type} {value : Reader α}
    (skips : ∀ {s v rest}, value s = .ok (v, rest) → Skips s rest) {s t rest : Bytes}
    {fs : List (String × α)} (gap : skipGap s = 0x7B :: t)
    (read : object value t = .ok (fs, rest)) : Skips s rest := by
  obtain ⟨u, all, close⟩ := object_iff.mp read
  obtain ⟨r, rfl, closes⟩ := fields_skipped skips all
  cases (endObject_written r).symm.trans close
  exact closes.skips gap fun n opened => by simp [skipIn, gap]

/-! ### Whole values -/

/-- What is read as a value is skipped as one. -/
theorem value_skips {levels : Nat} {s rest : Bytes} {v : Json}
    (read : value levels s = .ok (v, rest)) : Skips s rest := by
  induction levels generalizing s rest v with
  | zero =>
    simp only [value] at read
    split at read
    · cases read
    next gap =>
      split at read
      · cases read
      next flat =>
        obtain ⟨noList, noObject⟩ := not_or.mp flat
        exact skips_scalar gap noList noObject read
  | succ levels ih =>
    simp only [value] at read
    split at read
    · cases read
    next gap =>
      split at read
      next bracket =>
        obtain ⟨r, all, ⟨⟩⟩ := map_eq_ok read
        rw [bracket] at gap
        exact skips_list ih gap all
      next noList =>
        split at read
        next brace =>
          obtain ⟨r, all, ⟨⟩⟩ := map_eq_ok read
          rw [brace] at gap
          exact skips_object ih gap all
        next noObject => exact skips_scalar gap noList noObject read

/-! ## Where a text goes on -/

theorem colon_append {s rest : Bytes} (read : colon s = .ok rest) (t : Bytes) :
    colon (s ++ t) = .ok (rest ++ t) :=
  colon_iff.mpr (skipGap_append (colon_iff.mp read) t)

theorem skipKey_append {s rest : Bytes} (skip : skipKey s = .ok rest) (t : Bytes) :
    skipKey (s ++ t) = .ok (rest ++ t) := by
  simp only [skipKey] at skip
  split at skip
  · cases skip
  next u gap =>
    split at skip
    next quote =>
      split at skip
      · cases skip
      next text =>
        have room : u.length ≤ (u ++ t).length := by
          rw [List.length_append]
          exact Nat.le_add_right _ _
        simp only [skipKey, skipGap_append gap, if_pos quote, skipText_append text room]
        exact colon_append skip t
    · cases skip

theorem skip_append {t : Bytes} (stops : Stops t) {n m : Nat} (room : n ≤ m) :
    (∀ {opened s rest}, skipIn n opened s = .ok rest →
      skipIn m opened (s ++ t) = .ok (rest ++ t)) ∧
    ∀ {afterItem opened s rest}, skipRest n afterItem opened s = .ok rest →
      skipRest m afterItem opened (s ++ t) = .ok (rest ++ t) := by
  induction n generalizing m with
  | zero =>
    constructor
    · intro opened s rest skip
      cases skip
    · intro afterItem opened s rest skip
      cases skip
  | succ n ih =>
    obtain ⟨m, rfl⟩ := Nat.exists_eq_add_one_of_ne_zero (Nat.ne_zero_of_lt room)
    obtain ⟨ihIn, ihRest⟩ := ih (Nat.le_of_succ_le_succ room)
    constructor
    · intro opened s rest skip
      simp only [skipIn] at skip
      split at skip
      · cases skip
      next gap =>
        simp only [skipIn, skipGap_append gap]
        split at skip
        next bracket =>
          rw [if_pos bracket]
          exact ihRest skip
        next bracket =>
          rw [if_neg bracket]
          split at skip
          next brace =>
            rw [if_pos brace]
            exact ihRest skip
          next brace =>
            rw [if_neg brace]
            split at skip
            · cases skip
            next flat =>
              simp only [(skipScalar_extends _ flat).2 t stops]
              exact ihRest skip
    · intro afterItem opened s rest skip
      cases opened with
      | nil =>
        cases skip
        rfl
      | cons bracket opened =>
        simp only [skipRest] at skip
        split at skip
        · cases skip
        next b u gap =>
          simp only [skipRest, skipGap_append gap]
          split at skip
          next closes =>
            rw [if_pos closes]
            exact ihRest skip
          next closes =>
            rw [if_neg closes]
            split at skip
            · cases skip
            next goes =>
              have next : (if afterItem then u ++ t else b :: (u ++ t)) =
                  (if afterItem then u else b :: u) ++ t := by cases afterItem <;> rfl
              rw [if_neg goes, next]
              cases bracket with
              | square => exact ihIn skip
              | curly =>
                dsimp only at skip ⊢
                split at skip
                · cases skip
                next key =>
                  simp only [skipKey_append key]
                  exact ihIn skip

theorem skipValue_extends {s rest t : Bytes} (skip : skipValue s = .ok rest) (stops : Stops t) :
    skipValue (s ++ t) = .ok (rest ++ t) := by
  have room : 2 * s.length + 2 ≤ 2 * (s ++ t).length + 2 := by
    rw [List.length_append]
    omega
  exact (skip_append stops room).1 skip

end Json

end JobQueue
