import JobQueue.Proofs.Json.Shape

/-!
# Values come back

A value without floating-point numbers, in the form that reading gives, is read back
from its compact text when no more brackets nest in it than the reader allows; else
the reading ends at the first bracket that is inside of too many others
(`Json.value_written`).  Both are one statement, as an array is read like its items
one after the other: all of them, or those before the first that is too deep.

Conversely all that is read is in that form and not too deep (`Json.value_sound`).
-/

namespace JobQueue

namespace Json

/-! ## Separators -/

theorem nextItem_first {s : Bytes} (begins : Begins s) : nextItem true s = .ok (true, s) := by
  cases s with
  | nil => cases begins
  | cons b s => simp [nextItem, begins.skipGap, begins.2]

theorem nextItem_comma {s : Bytes} (begins : Begins s) :
    nextItem false (0x2C :: s) = .ok (true, s) := by
  have comma : skipGap (0x2C :: s) = 0x2C :: s := skipGap_cons (by decide)
  cases s with
  | nil => cases begins
  | cons b s => simp [nextItem, comma, begins.skipGap, begins.2]

theorem textBytes_append (n : String) (s : Bytes) :
    textBytes n ++ s = quoteByte :: ((Bytes.ofText n).flatMap escapedByte ++ quoteByte :: s) := by
  simp [textBytes]

/-! ## Items and fields -/

/-- What comes of reading a text that has a bracket too deep at `at?`, or else reads
as `r`. -/
def outcome {α : Type} (at? : Option Nat) (s : Bytes) (r : α × Bytes) :
    Except Fault (α × Bytes) :=
  match at? with
  | none => .ok r
  | some k => .error (.ahead .nesting (s.drop k))

@[simp] theorem outcome_none {α : Type} (s : Bytes) (r : α × Bytes) : outcome none s r = .ok r :=
  rfl

@[simp] theorem outcome_some {α : Type} (k : Nat) (s : Bytes) (r : α × Bytes) :
    outcome (some k) s r = .error (.ahead .nesting (s.drop k)) := rfl

/-- A reader of values gets an item back, or stops at a bracket that is too deep. -/
def ReadsBack {α : Type} (read : Reader α) (at? : Json → Option Nat) (f : α → Json) (x : α) :
    Prop :=
  Begins (f x).bytes ∧ ∀ s, Stops s →
    read ((f x).bytes ++ s) = outcome (at? (f x)) ((f x).bytes ++ s) (x, s)

section Loops

variable {α : Type} {read : Reader α} {at? : Json → Option Nat} {f : α → Json}

theorem begins_itemBytes {x : α} (back : ReadsBack read at? f x) (xs : List α) (s : Bytes) :
    Begins (itemBytes ((x :: xs).map f) ++ s) := by
  cases xs with
  | nil => exact back.1.append s
  | cons y ys => exact (back.1.append _).append s

/-- After a comma, items are read as at the start of an array. -/
theorem items_comma {n : Nat} {s : Bytes} (begins : Begins s) :
    items read n false (0x2C :: s) = items read n true s := by
  cases n with
  | zero => rfl
  | succ n => simp only [items, nextItem_comma begins, nextItem_first begins]

theorem items_written {xs : List α} (back : ∀ x ∈ xs, ReadsBack read at? f x) (s : Bytes)
    (n : Nat) : items read (n + xs.length + 1) true (itemBytes (xs.map f) ++ 0x5D :: s) =
      outcome (itemAt? at? (xs.map f)) (itemBytes (xs.map f) ++ 0x5D :: s) (xs, 0x5D :: s) := by
  induction xs with
  | nil => exact items_end read n true s
  | cons x xs ih =>
    have first := back x List.mem_cons_self
    have there := nextItem_first (begins_itemBytes first xs (0x5D :: s))
    cases xs with
    | nil =>
      have item := first.2 (0x5D :: s) (stops_bracket s)
      simp only [List.map_cons, List.map_nil, itemBytes_singleton] at there ⊢
      simp only [List.length_cons, ← Nat.add_assoc, items, there, item, itemAt?]
      cases at? (f x) <;> simp
    | cons y ys =>
      have item := first.2 _ (stops_comma (itemBytes ((y :: ys).map f) ++ 0x5D :: s))
      have begins := begins_itemBytes (back y (by simp)) ys (0x5D :: s)
      have more := ih fun z mem => back z (List.mem_cons_of_mem _ mem)
      have text : itemBytes ((x :: y :: ys).map f) ++ 0x5D :: s =
          (f x).bytes ++ 0x2C :: (itemBytes ((y :: ys).map f) ++ 0x5D :: s) := by
        simp [itemBytes_cons_cons]
      have found : itemAt? at? ((x :: y :: ys).map f) =
          (at? (f x)).or ((itemAt? at? ((y :: ys).map f)).map ((f x).bytes.length + 1 + ·)) :=
        itemAt?_cons at? (f x) _
      rw [text] at there ⊢
      rw [List.length_cons, ← Nat.add_assoc, items]
      simp only [there, item, found]
      cases at? (f x) with
      | some k => rfl
      | none =>
        simp only [outcome_none, items_comma begins, more]
        cases itemAt? at? ((y :: ys).map f) with
        | some k => simp only [outcome_some, Option.map_some, Option.none_or, drop_past]
        | none => rfl

/-- The fields of an object, each with what is written of its value. -/
def mapped (f : α → Json) (xs : List (String × α)) : List (String × Json) :=
  xs.map fun x => (x.1, f x.2)

theorem fields_written {xs : List (String × α)} (back : ∀ x ∈ xs, ReadsBack read at? f x.2)
    (s : Bytes) (n : Nat) :
    fields read (n + xs.length + 1) true (fieldBytes (mapped f xs) ++ 0x7D :: s) =
      outcome (fieldAt? at? (mapped f xs)) (fieldBytes (mapped f xs) ++ 0x7D :: s)
        (xs, 0x7D :: s) := by
  induction xs with
  | nil => exact fields_end read n true s
  | cons x xs ih =>
    obtain ⟨name, x⟩ := x
    have first := (back (name, x) List.mem_cons_self).2
    cases xs with
    | nil =>
      have value := first (0x7D :: s) (stops_brace s)
      have text : fieldBytes (mapped f [(name, x)]) ++ 0x7D :: s =
          textBytes name ++ 0x3A :: ((f x).bytes ++ 0x7D :: s) := by
        simp [mapped, fieldBytes_singleton]
      have found : fieldAt? at? (mapped f [(name, x)]) =
          (at? (f x)).map ((textBytes name).length + 1 + ·) := by
        simp [mapped, fieldAt?_cons, fieldAt?]
      rw [text, found, textBytes_append]
      simp only [List.length_cons, ← Nat.add_assoc, fields, nextKey_first, textTail_written,
        colon_written, value]
      cases at? (f x) with
      | some k => simp only [outcome_some, Option.map_some, ← textBytes_append, drop_past]
      | none => simp
    | cons y ys =>
      have value := first _ (stops_comma (fieldBytes (mapped f (y :: ys)) ++ 0x7D :: s))
      have more := ih fun z mem => back z (List.mem_cons_of_mem _ mem)
      have text : fieldBytes (mapped f ((name, x) :: y :: ys)) ++ 0x7D :: s =
          textBytes name ++ 0x3A ::
            ((f x).bytes ++ 0x2C :: (fieldBytes (mapped f (y :: ys)) ++ 0x7D :: s)) := by
        simp [mapped, fieldBytes_cons_cons]
      have next : ∃ t, fieldBytes (mapped f (y :: ys)) ++ 0x7D :: s = quoteByte :: t := by
        cases ys <;> exact ⟨_, rfl⟩
      have found : fieldAt? at? (mapped f ((name, x) :: y :: ys)) =
          ((at? (f x)).or ((fieldAt? at? (mapped f (y :: ys))).map
            ((f x).bytes.length + 1 + ·))).map ((textBytes name).length + 1 + ·) :=
        fieldAt?_cons at? (name, f x) _
      obtain ⟨t, eq⟩ := next
      rw [text, found, textBytes_append, List.length_cons, ← Nat.add_assoc, fields]
      simp only [nextKey_first, textTail_written, colon_written, value]
      cases at? (f x) with
      | some k =>
        simp only [outcome_some, Option.some_or, Option.map_some, ← textBytes_append, drop_past]
      | none =>
        rw [eq] at more
        simp only [outcome_none, eq, fields_comma, more]
        cases fieldAt? at? (mapped f (y :: ys)) with
        | some k =>
          simp only [outcome_some, Option.map_some, Option.none_or, ← textBytes_append, drop_past]
        | none => rfl

theorem length_le_itemBytes {xs : List α} (back : ∀ x ∈ xs, ReadsBack read at? f x) :
    xs.length ≤ (itemBytes (xs.map f)).length := by
  induction xs with
  | nil => simp
  | cons x xs ih =>
    have first := (back x List.mem_cons_self).1.length_pos
    have later := ih fun y mem => back y (List.mem_cons_of_mem _ mem)
    cases xs with
    | nil => simpa [itemBytes_singleton] using Nat.succ_le_of_lt first
    | cons y ys =>
      simp only [List.map_cons, itemBytes_cons_cons, List.length_append,
        List.length_cons] at later ⊢
      omega

theorem length_le_fieldBytes (f : α → Json) (xs : List (String × α)) :
    xs.length ≤ (fieldBytes (mapped f xs)).length := by
  induction xs with
  | nil => simp
  | cons x xs ih =>
    cases xs with
    | nil =>
      simp only [mapped, List.map_cons, List.map_nil, fieldBytes_singleton, List.length_append,
        List.length_cons, List.length_nil]
      omega
    | cons y ys =>
      simp only [mapped, List.map_cons, fieldBytes_cons_cons, List.length_append,
        List.length_cons] at ih ⊢
      omega

theorem list_written {xs : List α} (back : ∀ x ∈ xs, ReadsBack read at? f x) (s : Bytes) :
    list read (itemBytes (xs.map f) ++ 0x5D :: s) =
      outcome (itemAt? at? (xs.map f)) (itemBytes (xs.map f) ++ 0x5D :: s) (xs, s) := by
  have fits : xs.length ≤ (itemBytes (xs.map f) ++ 0x5D :: s).length := by
    rw [List.length_append]
    exact Nat.le_add_right_of_le (length_le_itemBytes back)
  obtain ⟨n, long⟩ := Nat.exists_eq_add_of_le' fits
  simp only [list, long, items_written back]
  cases itemAt? at? (xs.map f) with
  | some k => rfl
  | none => simp

theorem object_written {xs : List (String × α)} (back : ∀ x ∈ xs, ReadsBack read at? f x.2)
    (s : Bytes) :
    object read (fieldBytes (mapped f xs) ++ 0x7D :: s) =
      outcome (fieldAt? at? (mapped f xs)) (fieldBytes (mapped f xs) ++ 0x7D :: s) (xs, s) := by
  have fits : xs.length ≤ (fieldBytes (mapped f xs) ++ 0x7D :: s).length := by
    rw [List.length_append]
    exact Nat.le_add_right_of_le (length_le_fieldBytes f xs)
  obtain ⟨n, long⟩ := Nat.exists_eq_add_of_le' fits
  simp only [object, long, fields_written back]
  cases fieldAt? at? (mapped f xs) with
  | some k => rfl
  | none => simp

end Loops

/-! ## Values -/

/-- A value without brackets comes back, whatever its first byte decides. -/
theorem scalar_written {v : Json} (regular : v.Regular) (noFloat : v.NoFloat) (flat : v.depth = 0)
    {s : Bytes} (stops : Stops s) :
    ∃ b t, v.bytes = b :: t ∧ b ≠ 0x5B ∧ b ≠ 0x7B ∧ scalar b (t ++ s) = .ok (v, s) := by
  cases v with
  | null => exact ⟨_, _, rfl, by decide, by decide, rfl⟩
  | bool b => cases b <;> exact ⟨_, _, rfl, by decide, by decide, rfl⟩
  | int n =>
    have fits : Fits n := regular_int.mp regular
    have read := number_written fits stops
    obtain ⟨b, t, eq, sign⟩ := intBytes_cases n
    rw [eq, List.cons_append] at read
    refine ⟨b, t, eq, ?_, ?_, ?_⟩
    · rintro rfl; revert sign; decide
    · rintro rfl; revert sign; decide
    · have letters : b ≠ 0x6E ∧ b ≠ 0x74 ∧ b ≠ 0x66 := by
        refine ⟨?_, ?_, ?_⟩ <;> rintro rfl <;> revert sign <;> decide
      obtain ⟨n, t, f⟩ := letters
      simp only [scalar, if_neg n, if_neg t, if_neg f, if_pos sign, read]
  | float x => exact absurd noFloat (not_noFloat_float x)
  | str t =>
    refine ⟨_, _, rfl, by decide, by decide, ?_⟩
    have noDigit : isDigit 0x22 = false := by decide
    simp [scalar, quoteByte, noDigit, Except.map]
  | arr items => simp [depth] at flat
  | obj fields => simp [depth] at flat

theorem value_flat {v : Json} (regular : v.Regular) (noFloat : v.NoFloat) (flat : v.depth = 0)
    {s : Bytes} (stops : Stops s) (levels : Nat) :
    value levels (v.bytes ++ s) = .ok (v, s) := by
  obtain ⟨b, t, eq, noList, noObject, read⟩ := scalar_written regular noFloat flat stops
  have begins := (begins_bytes noFloat).append s
  rw [eq, List.cons_append] at begins ⊢
  cases levels <;> simp [value, begins.skipGap, noList, noObject, read]

/-- The first bracket is refused where no bracket may be opened. -/
theorem value_refused {b : UInt8} (bracket : b = 0x5B ∨ b = 0x7B) (s : Bytes) :
    value 0 (b :: s) = .error (.ahead .nesting (b :: s)) := by
  have noGap : isGap b = false := by rcases bracket with rfl | rfl <;> decide
  simp [value, skipGap_cons noGap, bracket]

theorem value_list (levels : Nat) (s : Bytes) :
    value (levels + 1) (0x5B :: s) = (list (value levels) s).map fun r => (.arr r.1, r.2) := by
  have noGap : isGap 0x5B = false := by decide
  simp [value, skipGap_cons noGap]

theorem value_object (levels : Nat) (s : Bytes) :
    value (levels + 1) (0x7B :: s) =
      (object (value levels) s).map fun r => (.obj (sortNamed r.1), r.2) := by
  have noGap : isGap 0x7B = false := by decide
  simp [value, skipGap_cons noGap]

/-- A value comes back, or its reading stops at the first bracket that is too deep. -/
theorem value_written (levels : Nat) {v : Json} (regular : v.Regular) (noFloat : v.NoFloat) :
    ReadsBack (value levels) (tooDeepAt? levels) id v := by
  induction levels generalizing v with
  | zero =>
    refine ⟨begins_bytes noFloat, fun s stops => ?_⟩
    cases v with
    | arr items => exact value_refused (.inl rfl) _
    | obj fields => exact value_refused (.inr rfl) _
    | _ => exact value_flat regular noFloat rfl stops 0
  | succ levels ih =>
    refine ⟨begins_bytes noFloat, fun s stops => ?_⟩
    cases v with
    | arr items =>
      have read := list_written
        (fun v mem => ih (regular_arr.mp regular v mem) (noFloat_arr.mp noFloat v mem)) s
      rw [List.map_id] at read
      rw [id, bytes_arr_append, value_list, read]
      cases found : itemAt? (tooDeepAt? levels) items with
      | some k => simp [tooDeepAt?, found, Except.map, Nat.add_comm 1]
      | none => simp [tooDeepAt?, found, Except.map]
    | obj fields =>
      have read := object_written
        (fun f mem => ih ((regular_obj.mp regular).2 f mem) (noFloat_obj.mp noFloat f mem)) s
      have sorted := sortNamed_of_ascending (regular_obj.mp regular).1
      rw [show mapped id fields = fields from List.map_id fields] at read
      rw [id, bytes_obj_append, value_object, read]
      cases found : fieldAt? (tooDeepAt? levels) fields with
      | some k => simp [tooDeepAt?, found, Except.map, Nat.add_comm 1]
      | none => simp [tooDeepAt?, found, Except.map, sorted]
    | _ => exact value_flat regular noFloat rfl stops (levels + 1)

/-! ## What is read as a value -/

section Sound

variable {α : Type} {read : Reader α} {p : α → Prop}

theorem items_sound (sound : ∀ {s v rest}, read s = .ok (v, rest) → p v) {n : Nat}
    {first : Bool} {s rest : Bytes} {vs : List α} (all : items read n first s = .ok (vs, rest)) :
    ∀ v ∈ vs, p v := by
  induction n generalizing first s vs with
  | zero => cases all
  | succ n ih =>
    simp only [items] at all
    repeat' split at all
    · cases all
    · cases all
      simp
    · cases all
    · cases all
    · cases all
      have item := sound ‹read _ = .ok _›
      have more := ih ‹items _ _ _ _ = .ok _›
      simpa using ⟨item, more⟩

theorem fields_sound (sound : ∀ {s v rest}, read s = .ok (v, rest) → p v) {n : Nat}
    {first : Bool} {s rest : Bytes} {fs : List (String × α)}
    (all : fields read n first s = .ok (fs, rest)) :
    ∀ f ∈ fs, p f.2 := by
  induction n generalizing first s fs with
  | zero => cases all
  | succ n ih =>
    simp only [fields] at all
    repeat' split at all
    · cases all
    · cases all
      simp
    · cases all
    · cases all
    · cases all
    · cases all
    · cases all
      have field := sound ‹read _ = .ok _›
      have more := ih ‹fields _ _ _ _ = .ok _›
      intro f mem
      rcases List.mem_cons.mp mem with rfl | mem
      · exact field
      · exact more f mem

theorem list_sound (sound : ∀ {s v rest}, read s = .ok (v, rest) → p v) {s rest : Bytes}
    {vs : List α} (all : list read s = .ok (vs, rest)) : ∀ v ∈ vs, p v := by
  simp only [list] at all
  repeat' split at all
  · cases all
  · cases all
  · cases all
    exact items_sound sound ‹items _ _ _ _ = .ok _›

theorem object_sound (sound : ∀ {s v rest}, read s = .ok (v, rest) → p v) {s rest : Bytes}
    {fs : List (String × α)} (all : object read s = .ok (fs, rest)) : ∀ f ∈ fs, p f.2 := by
  simp only [object] at all
  repeat' split at all
  · cases all
  · cases all
  · cases all
    exact fields_sound sound ‹fields _ _ _ _ = .ok _›

end Sound

theorem map_eq_ok {ε α β : Type} {x : Except ε α} {f : α → β} {y : β} (h : x.map f = .ok y) :
    ∃ a, x = .ok a ∧ f a = y := by
  cases x with
  | error e => cases h
  | ok a => exact ⟨a, rfl, by simpa [Except.map] using h⟩

theorem scalar_sound {b : UInt8} {s rest : Bytes} {v : Json} (read : scalar b s = .ok (v, rest)) :
    v.Regular ∧ v.depth = 0 := by
  simp only [scalar] at read
  split at read
  · obtain ⟨_, -, ⟨⟩⟩ := map_eq_ok read
    exact ⟨regular_null, rfl⟩
  · split at read
    · obtain ⟨_, -, ⟨⟩⟩ := map_eq_ok read
      exact ⟨regular_bool true, rfl⟩
    · split at read
      · obtain ⟨_, -, ⟨⟩⟩ := map_eq_ok read
        exact ⟨regular_bool false, rfl⟩
      · split at read
        · have number := number_sound read
          cases v with
          | int n => exact ⟨regular_int.mpr number, rfl⟩
          | float x => exact ⟨regular_float x, rfl⟩
          | _ => cases number
        · split at read
          · obtain ⟨r, -, ⟨⟩⟩ := map_eq_ok read
            exact ⟨regular_str r.1, rfl⟩
          · cases read

/-- What is read as a value is in the form that reading gives, and not too deep. -/
theorem value_sound {levels : Nat} {s rest : Bytes} {v : Json}
    (read : value levels s = .ok (v, rest)) : v.Regular ∧ v.depth ≤ levels := by
  induction levels generalizing s rest v with
  | zero =>
    simp only [value] at read
    repeat' split at read
    · cases read
    · cases read
    · have flat := scalar_sound read
      exact ⟨flat.1, by omega⟩
  | succ levels ih =>
    simp only [value] at read
    repeat' split at read
    · cases read
    · obtain ⟨r, all, ⟨⟩⟩ := map_eq_ok read
      have inside := list_sound ih all
      exact ⟨regular_arr.mpr fun v mem => (inside v mem).1,
        Nat.succ_le_succ (depthOfItems_le_iff.mpr fun v mem => (inside v mem).2)⟩
    · obtain ⟨r, all, ⟨⟩⟩ := map_eq_ok read
      have inside := fun f mem => object_sound ih all f (mem_sortNamed mem)
      exact ⟨regular_obj.mpr ⟨pairwise_sortNamed r.1, fun f mem => (inside f mem).1⟩,
        Nat.succ_le_succ (depthOfFields_le_iff.mpr fun f mem => (inside f mem).2)⟩
    · have flat := scalar_sound read
      exact ⟨flat.1, by omega⟩

end Json

end JobQueue
