import JobQueue.Proofs.Json.Record
import JobQueue.Proofs.Json.Fields

/-!
# Records from the texts of their parts

The text of an object is put together from names and the texts of values
(`Json.objectText`), be they written as a printer writes them or in some other
way.  What a record reader makes of it is told part by part: a part that the
layout knows is read and put to what is gathered, and a part of another name is
skipped, whatever value it holds (`Json.Adds`, `Json.recordValue_objectText`).
-/

namespace JobQueue

namespace Json

/-! ## Texts of objects -/

/-- Names and texts of values, with colons behind the names and commas in between. -/
def partBytes (parts : List (String × Bytes)) : Bytes :=
  [0x2C].intercalate (parts.map fun p => textBytes p.1 ++ 0x3A :: p.2)

/-- The text of an object of which the parts are the names and the texts of the values. -/
def objectText (parts : List (String × Bytes)) : Bytes := 0x7B :: (partBytes parts ++ [0x7D])

theorem partBytes_singleton (p : String × Bytes) :
    partBytes [p] = textBytes p.1 ++ 0x3A :: p.2 := List.intercalate_singleton

theorem partBytes_cons_cons (p q : String × Bytes) (rest : List (String × Bytes)) :
    partBytes (p :: q :: rest) = textBytes p.1 ++ 0x3A :: p.2 ++ 0x2C :: partBytes (q :: rest) := by
  simp [partBytes, List.intercalate_cons_cons]

theorem fieldBytes_eq (fields : List (String × Json)) :
    fieldBytes fields = partBytes (fields.map fun f => (f.1, f.2.bytes)) := by
  induction fields with
  | nil => rfl
  | cons f rest ih =>
    cases rest with
    | nil => simp [fieldBytes_singleton, partBytes_singleton]
    | cons g rest => simp [fieldBytes_cons_cons, partBytes_cons_cons, ih]

/-- An object is printed with its values as they are printed. -/
theorem bytes_obj_eq (fields : List (String × Json)) :
    (obj fields).bytes = objectText (fields.map fun f => (f.1, f.2.bytes)) := by
  rw [objectText, ← fieldBytes_eq]
  rfl

theorem exists_partBytes_cons (p : String × Bytes) (rest : List (String × Bytes)) :
    ∃ t, partBytes (p :: rest) = quoteByte :: t := by
  cases rest with
  | nil => exact ⟨_, partBytes_singleton p⟩
  | cons q rest => exact ⟨_, partBytes_cons_cons p q rest⟩

theorem length_le_partBytes (parts : List (String × Bytes)) :
    parts.length ≤ (partBytes parts).length := by
  induction parts with
  | nil => exact Nat.le_refl 0
  | cons p rest ih =>
    cases rest with
    | nil =>
      simp only [partBytes_singleton, List.length_append, List.length_cons, List.length_nil]
      omega
    | cons q rest =>
      simp only [partBytes_cons_cons, List.length_append, List.length_cons] at ih ⊢
      omega

/-- Whether a text is one value, whatever that is and however deep it goes. -/
def IsValue (text : Bytes) : Prop := ∃ levels v, whole (value levels) text = .ok v

/-- A text of a value is skipped up to the blanks at its end. -/
theorem IsValue.skipValue {text : Bytes} (h : IsValue text) :
    ∃ gap, skipGap gap = [] ∧ ∀ s, Stops s → skipValue (text ++ s) = .ok (gap ++ s) := by
  obtain ⟨levels, v, all⟩ := h
  obtain ⟨gap, read, done⟩ := whole_iff.mp all
  exact ⟨gap, endText_iff.mp done,
    fun s stops => skipValue_extends (value_skips read).skipValue stops⟩

/-! ## Part by part -/

section Records

variable {σ α : Type} {r : TextLayout σ α} {levels : Nat}

theorem namedFields_gap {gap : Bytes} (blank : skipGap gap = []) (n : Nat) (first : Bool) (got : σ)
    (s : Bytes) :
    namedFields r levels n first got (gap ++ s) = namedFields r levels n first got s := by
  have same : skipGap (gap ++ s) = skipGap s := by
    simp only [skipGap] at blank ⊢
    rw [List.dropWhile_append, blank]
    rfl
  cases n with
  | zero => rfl
  | succ n => simp only [namedFields, nextKey, same]

/-- The next field is skipped if it is not known. -/
theorem namedFields_unknown {name : String} (unknown : r.field? name = none)
    (free : r.isClosed = false) (n : Nat) (got : σ) (s : Bytes) :
    namedFields r levels (n + 1) true got (textBytes name ++ 0x3A :: s) =
      match skipValue s with
      | .error f => .error f
      | .ok s => namedFields r levels n false got s := by
  rw [textBytes_append]
  simp only [namedFields, nextKey_first, textTail_written, colon_written, unknown, free]
  rfl

/-- What a part adds to what is gathered of a record. -/
inductive Adds (r : TextLayout σ α) (levels : Nat) (got : σ) : String × Bytes → σ → Prop where
  | known {name : String} {text : Bytes} {field : Field σ (Nat → Reader (σ → σ))} {put : σ → σ}
    (known : r.field? name = some field) (new : field.isThere got = false)
    (read : ∀ s, Stops s → field.read levels (text ++ s) = .ok (put, s)) :
    Adds r levels got (name, text) (put got)
  | unknown {name : String} {text : Bytes} (unknown : r.field? name = none)
    (free : r.isClosed = false) (isValue : IsValue text) : Adds r levels got (name, text) got

/-- What parts add to what is gathered, one after the other. -/
inductive AddsAll (r : TextLayout σ α) (levels : Nat) : σ → List (String × Bytes) → σ → Prop where
  | done (got : σ) : AddsAll r levels got [] got
  | part {got more got' : σ} {p : String × Bytes} {rest : List (String × Bytes)}
    (adds : Adds r levels got p more) (others : AddsAll r levels more rest got') :
    AddsAll r levels got (p :: rest) got'

/-- A part is read up to the blanks at its end. -/
theorem Adds.namedFields {got more : σ} {p : String × Bytes} (adds : Adds r levels got p more) :
    ∃ gap, skipGap gap = [] ∧ ∀ n s, Stops s →
      namedFields r levels (n + 1) true got (textBytes p.1 ++ 0x3A :: (p.2 ++ s)) =
        namedFields r levels n false more (gap ++ s) := by
  cases adds with
  | known known new read =>
    refine ⟨[], rfl, fun n s stops => ?_⟩
    rw [namedFields_known known new, read s stops]
    rfl
  | unknown unknown free isValue =>
    obtain ⟨gap, blank, skip⟩ := isValue.skipValue
    refine ⟨gap, blank, fun n s stops => ?_⟩
    rw [namedFields_unknown unknown free, skip s stops]

/-- Parts are gathered up to the closing brace. -/
theorem AddsAll.namedFields {got got' : σ} {parts : List (String × Bytes)}
    (adds : AddsAll r levels got parts got') (n : Nat) (s : Bytes) :
    namedFields r levels (n + parts.length + 1) true got (partBytes parts ++ 0x7D :: s) =
      .ok (got', 0x7D :: s) := by
  induction adds with
  | done => exact namedFields_end ..
  | @part got more got' p rest one others ih =>
    obtain ⟨gap, blank, read⟩ := one.namedFields
    rw [List.length_cons, ← Nat.add_assoc]
    cases rest with
    | nil =>
      cases others
      rw [partBytes_singleton, List.append_assoc, List.cons_append, read _ _ (stops_brace s),
        namedFields_gap blank]
      exact namedFields_end ..
    | cons q rest =>
      obtain ⟨t, quote⟩ := exists_partBytes_cons q rest
      rw [quote, List.cons_append] at ih
      rw [partBytes_cons_cons, quote]
      simp only [List.append_assoc, List.cons_append]
      rw [read _ _ (stops_comma _), namedFields_gap blank, namedFields_comma]
      exact ih

/-- A record is read from the text of an object as its parts tell, whatever may follow. -/
theorem recordValue_objectText {got : σ} {parts : List (String × Bytes)} {x : α}
    (adds : AddsAll r levels r.start parts got) (finish : r.finish got = .ok x) (s : Bytes) :
    recordValue r (levels + 1) (objectText parts ++ s) = .ok (x, s) := by
  have short : parts.length ≤ (partBytes parts ++ 0x7D :: s).length := by
    rw [List.length_append]
    exact Nat.le_add_right_of_le (length_le_partBytes parts)
  obtain ⟨n, long⟩ := Nat.exists_eq_add_of_le' short
  have gathered := adds.namedFields n s
  rw [← long] at gathered
  rw [objectText, List.cons_append, List.append_assoc]
  exact recordValue_ok gathered finish

end Records

end Json

end JobQueue
