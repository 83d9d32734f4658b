import JobQueue.Json.Record
import JobQueue.Proofs.Json.Skip.Value

/-!
# Records field by field

What a record is read from is told one field at a time, by name (`Json.namedFields_iff`) or by
position (`Json.listedFields_cons_iff`), so that it can be compared with what a reader of values
makes of the same text.

The keys of an object can be told without reading its values (`Json.keys?`).  They are those
that a reader of values finds (`Json.keys?_of_parse`).
-/

namespace JobQueue

namespace Json

variable {α β : Type}

/-! ## Records by name -/

section Records

variable {σ : Type} {r : TextLayout σ α} {levels : Nat}

/-- One field of a record that is read by name: it is known and new, and put to what is
gathered, or it is skipped. -/
inductive Takes (r : TextLayout σ α) (levels : Nat) (first : Bool) (got : σ) (s : Bytes) :
    String → σ → Bytes → Prop where
  | known {name : String} {w u : Bytes} {field : Field σ (Nat → Reader (σ → σ))} {put : σ → σ}
    (key : KeyAt first s name w) (known : r.field? name = some field)
    (new : field.isThere got = false) (read : field.read levels w = .ok (put, u)) :
    Takes r levels first got s name (put got) u
  | unknown {name : String} {w u : Bytes} (key : KeyAt first s name w)
    (unknown : r.field? name = none) (free : r.isClosed = false) (skip : skipValue w = .ok u) :
    Takes r levels first got s name got u

/-- A record is read by name field by field, up to the closing brace. -/
theorem namedFields_iff {n : Nat} {first : Bool} {got got' : σ} {s rest : Bytes} :
    namedFields r levels (n + 1) first got s = .ok (got', rest) ↔
      (nextKey first s = .ok (false, rest) ∧ got' = got) ∨
        ∃ name more u, Takes r levels first got s name more u ∧
          namedFields r levels n false more u = .ok (got', rest) := by
  constructor
  · intro read
    simp only [namedFields] at read
    split at read
    · cases read
    next next =>
      cases read
      exact .inl ⟨next, rfl⟩
    next next =>
      right
      split at read
      · cases read
      next text =>
        split at read
        next known =>
          split at read
          · cases read
          next new =>
            split at read
            · cases read
            next colon =>
              split at read
              · cases read
              next one =>
                exact ⟨_, _, _, .known ⟨_, _, next, text, colon⟩ known (by simpa using new) one,
                  read⟩
        next unknown =>
          split at read
          · cases read
          next free =>
            split at read
            · cases read
            next colon =>
              split at read
              · cases read
              next skip =>
                exact ⟨_, _, _, .unknown ⟨_, _, next, text, colon⟩ unknown (by simpa using free)
                  skip, read⟩
  · rintro (⟨next, rfl⟩ | ⟨name, more, u, takes, read⟩)
    · simp only [namedFields, next]
    · cases takes with
      | known key known new one =>
        obtain ⟨t, x, next, text, colon⟩ := key
        simp only [namedFields, next, text, known, new, colon, one, Bool.false_eq_true, if_false]
        exact read
      | unknown key unknown free skip =>
        obtain ⟨t, x, next, text, colon⟩ := key
        simp only [namedFields, next, text, unknown, free, colon, skip, Bool.false_eq_true,
          if_false]
        exact read

theorem namedFields_iff_of_end {n : Nat} {first : Bool} {got got' : σ} {s t rest : Bytes}
    (next : nextKey first s = .ok (false, t)) :
    namedFields r levels (n + 1) first got s = .ok (got', rest) ↔ got' = got ∧ rest = t := by
  rw [namedFields_iff]
  constructor
  · rintro (⟨next', rfl⟩ | ⟨name, more, u, takes, -⟩)
    · cases next.symm.trans next'
      exact ⟨rfl, rfl⟩
    · cases takes with
      | known key => exact absurd next key.not_end
      | unknown key => exact absurd next key.not_end
  · rintro ⟨rfl, rfl⟩
    exact .inl ⟨next, rfl⟩

theorem namedFields_iff_of_key {n : Nat} {first : Bool} {got got' : σ} {s w rest : Bytes}
    {name : String} (key : KeyAt first s name w) :
    namedFields r levels (n + 1) first got s = .ok (got', rest) ↔
      ∃ more u, Takes r levels first got s name more u ∧
        namedFields r levels n false more u = .ok (got', rest) := by
  rw [namedFields_iff]
  constructor
  · rintro (⟨next, -⟩ | ⟨name', more, u, takes, read⟩)
    · exact absurd next key.not_end
    · have same : name' = name := by
        cases takes with
        | known key' => exact (key'.inj key).1
        | unknown key' => exact (key'.inj key).1
      exact ⟨more, u, same ▸ takes, read⟩
  · rintro ⟨more, u, takes, read⟩
    exact .inr ⟨name, more, u, takes, read⟩

/-- A record is read by position field by field; one may be left out at the end. -/
theorem listedFields_cons_iff {field : Field σ (Nat → Reader (σ → σ))}
    {fields : List (Field σ (Nat → Reader (σ → σ)))} {count : Nat} {first : Bool} {got got' : σ}
    {s rest : Bytes} :
    listedFields r levels (field :: fields) count first got s = .ok (got', rest) ↔
      (∃ t, nextItem first s = .ok (false, t) ∧ field.mayLack = true ∧
        listedFields r levels fields (count + 1) first got t = .ok (got', rest)) ∨
      ∃ t put u, nextItem first s = .ok (true, t) ∧ field.read levels t = .ok (put, u) ∧
        listedFields r levels fields (count + 1) false (put got) u = .ok (got', rest) := by
  constructor
  · intro read
    simp only [listedFields] at read
    split at read
    · cases read
    next next =>
      split at read
      next lack => exact .inl ⟨_, next, lack, read⟩
      next => cases read
    next next =>
      split at read
      · cases read
      next one => exact .inr ⟨_, _, _, next, one, read⟩
  · rintro (⟨t, next, lack, read⟩ | ⟨t, put, u, next, one, read⟩)
    · simp only [listedFields, next, lack, if_true]
      exact read
    · simp only [listedFields, next, one]
      exact read

theorem concluded_iff {got : σ} {x : α} {s rest : Bytes} :
    concluded r got s = .ok (x, rest) ↔ r.finish got = .ok x ∧ rest = s := by
  simp only [concluded]
  split
  next finish => simp [finish, eq_comm]
  next finish => simp [finish]

theorem bracketed_iff {read : Reader α} {close : Bytes → Bytes}
    {finish : Bytes → Except Fault Bytes} {x : α} {s rest : Bytes} :
    bracketed read close finish s = .ok (x, rest) ↔
      ∃ u, read s = .ok (x, u) ∧ finish u = .ok rest := by
  constructor
  · intro all
    simp only [bracketed] at all
    split at all
    · cases all
    next inner =>
      obtain ⟨u, done, ⟨⟩⟩ := map_eq_ok all
      exact ⟨_, inner, done⟩
  · rintro ⟨u, inner, done⟩
    simp only [bracketed, inner, done]
    rfl

/-- A record is read by position or by name, as its first byte says. -/
theorem recordValue_iff {s rest : Bytes} {x : α} :
    recordValue r (levels + 1) s = .ok (x, rest) ↔
      (∃ t got u, skipGap s = 0x5B :: t ∧
        listedFields r levels r.fields 0 true r.start t = .ok (got, u) ∧
        r.finish got = .ok x ∧ endList u = .ok rest) ∨
      ∃ t got u, skipGap s = 0x7B :: t ∧
        namedFields r levels (t.length + 1) true r.start t = .ok (got, u) ∧
        r.finish got = .ok x ∧ endObject u = .ok rest := by
  constructor
  · intro read
    simp only [recordValue, startValue] at read
    split at read
    · cases read
    next t gap =>
      split at read
      next bracket =>
        left
        obtain ⟨u, inner, close⟩ := bracketed_iff.mp read
        split at inner
        · cases inner
        next all =>
          obtain ⟨finish, rfl⟩ := concluded_iff.mp inner
          exact ⟨t, _, _, by rw [gap, bracket], all, finish, close⟩
      next =>
        split at read
        next brace =>
          right
          obtain ⟨u, inner, close⟩ := bracketed_iff.mp read
          split at inner
          · cases inner
          next all =>
            obtain ⟨finish, rfl⟩ := concluded_iff.mp inner
            exact ⟨t, _, _, by rw [gap, brace], all, finish, close⟩
        next => cases read
  · rintro (⟨t, got, u, gap, all, finish, close⟩ | ⟨t, got, u, gap, all, finish, close⟩)
    · simp only [recordValue, startValue, gap, if_true]
      exact bracketed_iff.mpr ⟨u, by simp only [all, concluded, finish], close⟩
    · have noBracket : (0x7B : UInt8) ≠ 0x5B := by decide
      simp only [recordValue, startValue, gap, if_neg noBracket, if_true]
      exact bracketed_iff.mpr ⟨u, by simp only [all, concluded, finish], close⟩

end Records

/-! ## Keys -/

/-- Read a value as nothing, by skipping it. -/
def skipped : Reader Unit := fun s => (skipValue s).map fun s => ((), s)

/-- The keys that the text of an object spells, in the order of the text and with those that
are there twice, whatever their values. -/
def keys? (b : Bytes) : Option (List String) :=
  match whole (mapValue (fun _ => skipped) 1) b with
  | .ok fs => some (fs.map Prod.fst)
  | .error _ => none

theorem keys?_eq_some_iff {b : Bytes} {keys : List String} :
    keys? b = some keys ↔ ∃ t rest, skipGap b = 0x7B :: t ∧
      object skipped t = .ok (keys.map (·, ()), rest) ∧ endText rest = .ok () := by
  have units : ∀ fs : List (String × Unit), fs = (fs.map Prod.fst).map (·, ()) := fun fs => by
    simp [Function.comp_def]
  constructor
  · intro found
    simp only [keys?] at found
    split at found
    next fs all =>
      cases found
      obtain ⟨rest, inner, done⟩ := whole_iff.mp all
      simp only [mapValue, startValue] at inner
      split at inner
      · cases inner
      next t gap =>
        split at inner
        next brace =>
          refine ⟨t, rest, by rw [gap, brace], ?_, done⟩
          rw [← units fs, inner]
        next => cases inner
    next => cases found
  · rintro ⟨t, rest, gap, all, done⟩
    have inner : mapValue (fun _ => skipped) 1 b = .ok (keys.map (·, ()), rest) := by
      simp only [mapValue, startValue, gap, if_true, all]
    simp only [keys?, whole_iff.mpr ⟨rest, inner, done⟩, List.map_map]
    simp [Function.comp_def]

theorem fields_map {read : Reader α} {read' : Reader β} {g : α → β}
    (agree : ∀ {s v rest}, read s = .ok (v, rest) → read' s = .ok (g v, rest)) {n : Nat}
    {first : Bool} {s rest : Bytes} {fs : List (String × α)}
    (all : fields read n first s = .ok (fs, rest)) :
    fields read' n first s = .ok (fs.map fun f => (f.1, g f.2), rest) := by
  induction n generalizing first s fs with
  | zero => cases all
  | succ n ih =>
    cases fs with
    | nil => exact fields_nil_iff.mpr (fields_nil_iff.mp all)
    | cons f fs =>
      obtain ⟨w, u, key, one, more⟩ := fields_cons_iff.mp all
      exact fields_cons_iff.mpr ⟨w, u, key, agree one, ih more⟩

/-- The keys of an object that is read as a value. -/
theorem fields_keys {levels n : Nat} {first : Bool} {s rest : Bytes} {fs : List (String × Json)}
    (all : fields (value levels) n first s = .ok (fs, rest)) :
    fields skipped n first s = .ok ((fs.map Prod.fst).map (·, ()), rest) := by
  have skip : ∀ {s v rest}, value levels s = .ok (v, rest) → skipped s = .ok ((), rest) := by
    intro s v rest read
    simp only [skipped, (value_skips read).skipValue]
    rfl
  have mapped := fields_map (g := fun _ => ()) skip all
  rw [List.map_map]
  exact mapped

/-- What is read as a value is an array, an object or a plain value, as its first byte says. -/
theorem value_cases {levels : Nat} {s rest : Bytes} {v : Json}
    (read : value (levels + 1) s = .ok (v, rest)) :
    (∃ t vs, skipGap s = 0x5B :: t ∧ v = .arr vs ∧ list (value levels) t = .ok (vs, rest)) ∨
      (∃ t fs, skipGap s = 0x7B :: t ∧ v = .obj (sortNamed fs) ∧
        object (value levels) t = .ok (fs, rest)) ∨
      ∃ b t, skipGap s = b :: t ∧ b ≠ 0x5B ∧ b ≠ 0x7B ∧ v.depth = 0 := by
  simp only [value] at read
  split at read
  · cases read
  next b t gap =>
    split at read
    next bracket =>
      obtain ⟨r, all, ⟨⟩⟩ := map_eq_ok read
      exact .inl ⟨t, r.1, by rw [gap, bracket], rfl, all⟩
    next noList =>
      split at read
      next brace =>
        obtain ⟨r, all, ⟨⟩⟩ := map_eq_ok read
        exact .inr (.inl ⟨t, r.1, by rw [gap, brace], rfl, all⟩)
      next noObject => exact .inr (.inr ⟨b, t, gap, noList, noObject, (scalar_sound read).2⟩)

theorem value_of_list {levels : Nat} {s t rest : Bytes} {vs : List Json}
    (gap : skipGap s = 0x5B :: t) (all : list (value levels) t = .ok (vs, rest)) :
    value (levels + 1) s = .ok (.arr vs, rest) := by
  simp [value, gap, all, Except.map]

theorem value_of_object {levels : Nat} {s t rest : Bytes} {fs : List (String × Json)}
    (gap : skipGap s = 0x7B :: t) (all : object (value levels) t = .ok (fs, rest)) :
    value (levels + 1) s = .ok (.obj (sortNamed fs), rest) := by
  simp [value, gap, all, Except.map]

theorem keys?_of_object {levels : Nat} {b t rest : Bytes} {fs : List (String × Json)}
    (gap : skipGap b = 0x7B :: t) (all : object (value levels) t = .ok (fs, rest))
    (done : endText rest = .ok ()) : keys? b = some (fs.map Prod.fst) := by
  obtain ⟨u, inner, close⟩ := object_iff.mp all
  exact keys?_eq_some_iff.mpr
    ⟨t, rest, gap, object_iff.mpr ⟨u, fields_keys inner, close⟩, done⟩

/-- A text that is an object spells the names of its fields, and no other keys. -/
theorem keys?_of_parse {b : Bytes} {fields : List (String × Json)}
    (parsed : parse b = .ok (.obj fields)) :
    ∃ keys, keys? b = some keys ∧ ∀ name, name ∈ keys ↔ name ∈ fields.map Prod.fst := by
  obtain ⟨rest, read, done⟩ := whole_iff.mp parsed
  rcases value_cases read with ⟨t, vs, gap, eq, all⟩ | ⟨t, fs, gap, eq, all⟩ |
    ⟨b, t, gap, -, -, flat⟩
  · cases eq
  · cases eq
    exact ⟨_, keys?_of_object gap all done, fun _ => mem_names_sortNamed.symm⟩
  · simp [depth] at flat

theorem field?_obj (fields : List (String × Json)) (name : String) :
    (obj fields).field? name = lookupNamed name fields := by
  induction fields with
  | nil => rfl
  | cons f rest ih =>
    obtain ⟨n, v⟩ := f
    by_cases h : n = name
    · simp [field?, lookupNamed_cons, h]
    · simpa [field?, lookupNamed_cons, h] using ih

theorem scalar_str_iff {b : UInt8} {s rest : Bytes} {t : String} :
    scalar b s = .ok (.str t, rest) ↔ b = quoteByte ∧ textTail s = .ok (t, rest) := by
  constructor
  · intro read
    simp only [scalar] at read
    split at read
    · obtain ⟨r, -, ⟨⟩⟩ := map_eq_ok read
    · split at read
      · obtain ⟨r, -, ⟨⟩⟩ := map_eq_ok read
      · split at read
        · obtain ⟨r, -, ⟨⟩⟩ := map_eq_ok read
        · split at read
          · cases number_sound read
          · split at read
            next quote =>
              obtain ⟨r, text, ⟨⟩⟩ := map_eq_ok read
              exact ⟨quote, text⟩
            · cases read
  · rintro ⟨rfl, text⟩
    have noDigit : isDigit 0x22 = false := by decide
    simp [scalar, quoteByte, noDigit, text, Except.map]

/-- Reading a text is reading a value and finding a text. -/
theorem textValue_iff {levels : Nat} {s rest : Bytes} {t : String} :
    textValue s = .ok (t, rest) ↔ value levels s = .ok (.str t, rest) := by
  have typed : textValue s = .ok (t, rest) ↔
      ∃ b u, skipGap s = b :: u ∧ scalar b u = .ok (.str t, rest) := by
    simp only [textValue, startValue]
    split
    next gap => simp [gap]
    next gap =>
      split
      next quote => simp [gap, scalar_str_iff, quote]
      next quote => simp [gap, scalar_str_iff, quote]
  rw [typed]
  constructor
  · rintro ⟨b, u, gap, plain⟩
    obtain ⟨rfl, -⟩ := scalar_str_iff.mp plain
    cases levels <;> simp [value, gap, plain, quoteByte]
  · intro read
    cases levels with
    | zero =>
      simp only [value] at read
      split at read
      · cases read
      next gap =>
        split at read
        · cases read
        · exact ⟨_, _, gap, read⟩
    | succ levels =>
      simp only [value] at read
      split at read
      · cases read
      next gap =>
        split at read
        · obtain ⟨r, -, ⟨⟩⟩ := map_eq_ok read
        · split at read
          · obtain ⟨r, -, ⟨⟩⟩ := map_eq_ok read
          · exact ⟨_, _, gap, read⟩

end Json

end JobQueue
