import JobQueue.Job.Payload
import JobQueue.Proofs.Json.Parts
import JobQueue.Proofs.Time.Timestamp

/-!
# Typed values come back

A typed reader restores a value if it reads it from its text whatever may follow
(`Json.Restores`).  This goes along with the way in which values are put together: there is one
lemma for each kind of plain value, and one each for options, lists, maps, records
(`Json.Restores.record`, from its fields one by one) and variants.
-/

namespace JobQueue

namespace Json

variable {α σ : Type}

/-- Whether a reader takes a value from what is written of it, whatever may follow. -/
structure Restores (read : Reader α) (v : Json) (x : α) : Prop where
  begins : Begins v.bytes
  read_eq : ∀ s, Stops s → read (v.bytes ++ s) = .ok (x, s)

namespace Restores

theorem readsBack {read : Reader α} {f : α → Json} {x : α} (restores : Restores read (f x) x) :
    ReadsBack read (fun _ => none) f x := ⟨restores.begins, restores.read_eq⟩

theorem map {β : Type} {read : Reader α} {v : Json} {x : α} (restores : Restores read v x)
    (f : α → β) :
    Restores (fun s => (read s).map fun r => (f r.1, r.2)) v (f x) where
  begins := restores.begins
  read_eq s stops := by rw [restores.read_eq s stops]; rfl

/-- A whole text of a value is read as it. -/
theorem whole {read : Reader α} {v : Json} {x : α} (restores : Restores read v x) :
    Json.whole read v.bytes = .ok x := by
  have all := restores.read_eq [] stops_nil
  rw [List.append_nil] at all
  rw [Json.whole, all]
  rfl

/-! ## Plain values -/

theorem text (t : String) : Restores textValue (.str t) t where
  begins := begins_textBytes t
  read_eq s _ := textValue_written t s

theorem bool (b : Bool) : Restores boolValue (.bool b) b where
  begins := begins_bytes (noFloat_bool b)
  read_eq s _ := by cases b <;> rfl

theorem nat {n most : Nat} (fits : n ≤ most) (small : n < 18446744073709551616) (wanted : String) :
    Restores (natValue most wanted) (.int n) n where
  begins := begins_intBytes n
  read_eq s stops := by
    obtain ⟨b, t, eq, sign⟩ := intBytes_cases n
    have begins := begins_intBytes n
    have read := number_written (n := n) ⟨by omega, by omega⟩ stops
    rw [eq, List.cons_append] at read
    rw [eq] at begins
    have inside : 0 ≤ (n : Int) ∧ (n : Int) ≤ most := by omega
    rw [bytes, eq, List.cons_append, natValue, startValue, skipGap_cons begins.1]
    simp only [sign, if_true, read, inside, and_self, Int.toNat_natCast]

theorem byte (b : UInt8) : Restores byteValue (.int b.toNat) b := by
  have fits := b.toNat_lt
  have whole : Restores (natValue 255 "u8") (.int b.toNat) b.toNat := nat (by omega) (by omega) _
  have back := whole.map UInt8.ofNat
  rwa [UInt8.ofNat_toNat] at back

theorem word (n : UInt32) : Restores wordValue (.int n.toNat) n := by
  have fits := n.toNat_lt
  have whole : Restores (natValue 4294967295 "u32") (.int n.toNat) n.toNat :=
    nat (by omega) (by omega) _
  have back := whole.map UInt32.ofNat
  rwa [UInt32.ofNat_toNat] at back

theorem long (n : UInt64) (wanted : String) : Restores (longValue wanted) (.int n.toNat) n := by
  have fits := n.toNat_lt
  have whole : Restores (natValue 18446744073709551615 wanted) (.int n.toNat) n.toNat :=
    nat (by omega) fits _
  have back := whole.map UInt64.ofNat
  rwa [UInt64.ofNat_toNat] at back

theorem instant (t : Instant) : Restores instantValue t.json t where
  begins := begins_textBytes _
  read_eq s _ := by
    have noGap : isGap quoteByte = false := by decide
    rw [Instant.json, bytes, textBytes_append, instantValue, startValue, skipGap_cons noGap]
    simp only [if_true, textTail_written, String.toList_ofList, Instant.ofTimestamp_timestamp]

/-! ## Options, lists and maps -/

/-- Nothing is written as `null`, so a value that may be left out must not begin like it. -/
theorem option {read : Reader α} {f : α → Json} {o : Option α}
    (back : ∀ x, Restores read (f x) x) (filled : ∀ x, (f x).bytes.head? ≠ some 0x6E) :
    Restores (optionValue read) (ofOption f o) o := by
  cases o with
  | none => exact ⟨⟨by decide, by decide⟩, fun s _ => rfl⟩
  | some x =>
    have whole := back x
    refine ⟨whole.begins, fun s stops => ?_⟩
    have read := whole.read_eq s stops
    have filled := filled x
    rw [ofOption]
    cases eq : (f x).bytes with
    | nil =>
      have begins := whole.begins
      rw [eq] at begins
      cases begins
    | cons b t =>
      have begins := whole.begins
      rw [eq] at begins read filled
      have other : b ≠ 0x6E := by simpa using filled
      rw [List.cons_append] at read ⊢
      rw [optionValue, skipGap_cons begins.1]
      simp only [if_neg other, read]
      rfl

theorem list {item : Nat → Reader α} {levels : Nat} {f : α → Json} {xs : List α}
    (back : ∀ x ∈ xs, Restores (item levels) (f x) x) :
    Restores (listValue item (levels + 1)) (.arr (xs.map f)) xs where
  begins := ⟨by decide, by decide⟩
  read_eq s _ := by
    have read := list_written (fun x mem => (back x mem).readsBack) s
    have none : itemAt? (fun _ => none) (xs.map f) = none := itemAt?_eq_none.mpr fun _ _ => rfl
    rw [none, outcome_none] at read
    rw [bytes_arr_append]
    exact read

theorem mapOf {value : Nat → Reader α} {levels : Nat} {f : α → Json} {xs : List (String × α)}
    (back : ∀ x ∈ xs, Restores (value levels) (f x.2) x.2) :
    Restores (mapValue value (levels + 1)) (.obj (mapped f xs)) xs where
  begins := ⟨by decide, by decide⟩
  read_eq s _ := by
    have read := object_written (fun x mem => (back x mem).readsBack) s
    have none : fieldAt? (fun _ => none) (mapped f xs) = none := fieldAt?_eq_none.mpr fun _ _ => rfl
    rw [none, outcome_none] at read
    rw [bytes_obj_append]
    exact read

end Restores

/-! ## Records -/

/-- What is gathered of a record from its fields, one after the other. -/
inductive Gathers (r : TextLayout σ α) (levels : Nat) :
    σ → List (String × Json) → σ → Prop where
  | done (got : σ) : Gathers r levels got [] got
  | field {β : Type} {name : String} {isThere : σ → Bool} {scan : Nat → Reader β} {put : β → σ → σ}
    {mayLack : Bool} {got got' : σ} {v : Json} {x : β} {rest : List (String × Json)}
    (known : r.field? name = some (.scanned name isThere scan put mayLack))
    (new : isThere got = false) (back : Restores (scan levels) v x)
    (more : Gathers r levels (put x got) rest got') :
    Gathers r levels got ((name, v) :: rest) got'

section Records

variable {r : TextLayout σ α} {levels : Nat} {fields : List (String × Json)}

/-- A field that is written is read and put to what is gathered. -/
theorem Adds.scanned {β : Type} {name : String} {isThere : σ → Bool} {scan : Nat → Reader β}
    {put : β → σ → σ} {mayLack : Bool} {got : σ} {v : Json} {x : β}
    (known : r.field? name = some (.scanned name isThere scan put mayLack))
    (new : isThere got = false) (back : Restores (scan levels) v x) :
    Adds r levels got (name, v.bytes) (put x got) := by
  have read (s : Bytes) (stops : Stops s) :
      (Field.scanned name isThere scan put mayLack).read levels (v.bytes ++ s) =
        .ok (put x, s) := by
    simp only [Field.scanned, back.read_eq s stops, Except.map]
  exact .known known new read

/-- Fields that are gathered are parts of the text of an object. -/
theorem Gathers.addsAll {got got' : σ} (gathers : Gathers r levels got fields got') :
    AddsAll r levels got (fields.map fun f => (f.1, f.2.bytes)) got' := by
  induction gathers with
  | done got => exact .done got
  | field known new back more ih => exact .part (.scanned known new back) ih

/-- A record comes back if its fields are gathered and it is made of them. -/
theorem Restores.record {got : σ} {x : α} (gathers : Gathers r levels r.start fields got)
    (finish : r.finish got = .ok x) :
    Restores (recordValue r (levels + 1)) (.obj fields) x where
  begins := ⟨by decide, by decide⟩
  read_eq s _ := by
    rw [bytes_obj_eq]
    exact recordValue_objectText gathers.addsAll finish s

end Records

/-! ## Variants -/

section Variants

variable {variants : List (String × Variant α)} {name : String} {levels : Nat} {x : α}

/-- The bare name of a variant stands for it. -/
theorem Restores.unit (known : variants.lookup name = some (.unit x)) (levels : Nat) :
    Restores (variantValue variants levels) (.str name) x where
  begins := begins_textBytes name
  read_eq s _ := by
    have noGap : isGap quoteByte = false := by decide
    have noBrace : quoteByte ≠ 0x7B := by decide
    rw [bytes, textBytes_append, variantValue, startValue, skipGap_cons noGap]
    simp only [if_neg noBrace, if_true, variantName, textTail_written, known]

/-- A variant with fields comes back from under its name. -/
theorem Restores.variant {read : Nat → Reader α} {v : Json}
    (known : variants.lookup name = some (.record read)) (back : Restores (read levels) v x) :
    Restores (variantValue variants (levels + 1)) (.obj [(name, v)]) x where
  begins := ⟨by decide, by decide⟩
  read_eq s _ := by
    have noGap : isGap quoteByte = false := by decide
    have brace : skipGap (0x7B :: (fieldBytes [(name, v)] ++ 0x7D :: s)) =
      0x7B :: (fieldBytes [(name, v)] ++ 0x7D :: s) := skipGap_cons (by decide)
    have close : skipGap (0x7D :: s) = 0x7D :: s := skipGap_cons (by decide)
    have body := back.read_eq _ (stops_brace s)
    rw [bytes_obj_append, variantValue, startValue, brace]
    simp only [if_true, fieldBytes_singleton, List.append_assoc, List.cons_append,
      textBytes_append, variantKey, skipGap_cons noGap, variantName, textTail_written, known,
      colon_written, body, close]

end Variants

end Json

end JobQueue
