import JobQueue.Json.Record
import JobQueue.Proofs.Json.Value

/-!
# Reading records field by field

A record that is written as an object is gathered one field after the other
(`Json.namedFields_known`), up to the closing brace.

Whatever way a record is written, by name or by position, what is gathered of it
comes from reads of its fields: a property of what is gathered that holds at the
start and that every read of a field keeps holds of what the record is made from
(`Json.recordValue_sound`).
-/

namespace JobQueue

namespace Json

/-- A text comes back as a typed value. -/
@[simp] theorem textValue_written (t : String) (s : Bytes) :
    textValue (textBytes t ++ s) = .ok (t, s) := by
  have noGap : isGap quoteByte = false := by decide
  rw [textBytes_append]
  simp [textValue, startValue, skipGap_cons noGap]

section Records

variable {σ α : Type} {r : TextLayout σ α} {levels : Nat}

/-! ## Records that are written -/

/-- The next field is read, if it is known and new, and put to what is gathered. -/
theorem namedFields_known {name : String} {field : Field σ (Nat → Reader (σ → σ))} {got : σ}
    (known : r.field? name = some field) (new : field.isThere got = false) (n : Nat) (s : Bytes) :
    namedFields r levels (n + 1) true got (textBytes name ++ 0x3A :: s) =
      match field.read levels s with
      | .error f => .error f
      | .ok (put, s) => namedFields r levels n false (put got) s := by
  rw [textBytes_append]
  simp only [namedFields, nextKey_first, textTail_written, colon_written, known, new]
  rfl

theorem recordValue_object (s : Bytes) :
    recordValue r (levels + 1) (0x7B :: s) =
      bracketed (fun s =>
        match namedFields r levels (s.length + 1) true r.start s with
        | .error f => .error f
        | .ok (got, s) => concluded r got s) closeObject endObject s := rfl

theorem recordValue_ok {s rest : Bytes} {got : σ} {x : α}
    (gathered : namedFields r levels (s.length + 1) true r.start s = .ok (got, 0x7D :: rest))
    (finish : r.finish got = .ok x) : recordValue r (levels + 1) (0x7B :: s) = .ok (x, rest) := by
  rw [recordValue_object]
  simp [bracketed, gathered, concluded, finish, Except.map]

theorem recordValue_error {s : Bytes} {cause : Cause} {left : Nat}
    (gathered : namedFields r levels (s.length + 1) true r.start s =
      .error (.placed cause left)) :
    recordValue r (levels + 1) (0x7B :: s) = .error (.placed cause left) := by
  rw [recordValue_object]
  simp [bracketed, gathered, Fault.place]

/-! ## Records that are read -/

variable {p : σ → Prop}

/-- Whether reading a field keeps a property of what is gathered. -/
def Keeps (p : σ → Prop) (levels : Nat) (field : Field σ (Nat → Reader (σ → σ))) : Prop :=
  ∀ s put rest, field.read levels s = .ok (put, rest) → ∀ got, p got → p (put got)

theorem namedFields_sound (keeps : ∀ field ∈ r.fields, Keeps p levels field) {n : Nat}
    {first : Bool} {got got' : σ} {s rest : Bytes} (start : p got)
    (all : namedFields r levels n first got s = .ok (got', rest)) : p got' := by
  induction n generalizing first got s with
  | zero => cases all
  | succ n ih =>
    simp only [namedFields] at all
    split at all
    · cases all
    · cases all
      exact start
    · split at all
      · cases all
      · split at all
        · next field known =>
          have kept := keeps field (List.mem_of_find?_eq_some known)
          repeat' split at all
          · cases all
          · cases all
          · cases all
          · next read => exact ih (kept _ _ _ read _ start) all
        · repeat' split at all
          · cases all
          · cases all
          · cases all
          · exact ih start all

theorem listedFields_sound {fields : List (Field σ (Nat → Reader (σ → σ)))}
    (keeps : ∀ field ∈ fields, Keeps p levels field) {count : Nat} {first : Bool}
    {got got' : σ} {s rest : Bytes} (start : p got)
    (all : listedFields r levels fields count first got s = .ok (got', rest)) : p got' := by
  induction fields generalizing count first got s with
  | nil =>
    cases all
    exact start
  | cons field fields ih =>
    have kept := keeps field List.mem_cons_self
    have others : ∀ g ∈ fields, Keeps p levels g :=
      fun g mem => keeps g (List.mem_cons_of_mem field mem)
    simp only [listedFields] at all
    repeat' split at all
    · cases all
    · exact ih others start all
    · cases all
    · cases all
    · next read => exact ih others (kept _ _ _ read _ start) all

theorem concluded_sound {got : σ} {s rest : Bytes} {x : α}
    (all : concluded r got s = .ok (x, rest)) : r.finish got = .ok x := by
  simp only [concluded] at all
  split at all
  · next finish =>
    cases all
    exact finish
  · cases all

theorem bracketed_sound {read : Reader α} {close : Bytes → Bytes}
    {finish : Bytes → Except Fault Bytes} {s rest : Bytes} {x : α}
    (all : bracketed read close finish s = .ok (x, rest)) : ∃ t, read s = .ok (x, t) := by
  simp only [bracketed] at all
  split at all
  · cases all
  · next inner =>
    obtain ⟨_, -, ⟨⟩⟩ := map_eq_ok all
    exact ⟨_, inner⟩

/-- A record is made from what the reads of its fields leave. -/
theorem recordValue_sound (keeps : ∀ field ∈ r.fields, Keeps p levels field) (start : p r.start)
    {s rest : Bytes} {x : α} (all : recordValue r (levels + 1) s = .ok (x, rest)) :
    ∃ got, p got ∧ r.finish got = .ok x := by
  simp only [recordValue, startValue] at all
  repeat' split at all
  · cases all
  · obtain ⟨t, read⟩ := bracketed_sound all
    split at read
    · cases read
    · next gathered =>
      exact ⟨_, listedFields_sound keeps start gathered, concluded_sound read⟩
  · obtain ⟨t, read⟩ := bracketed_sound all
    split at read
    · cases read
    · next gathered =>
      exact ⟨_, namedFields_sound keeps start gathered, concluded_sound read⟩
  · cases all

end Records

end Json

end JobQueue
