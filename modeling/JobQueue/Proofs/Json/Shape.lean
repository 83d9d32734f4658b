import Mathlib.Data.List.TakeWhile
import JobQueue.Json.Parser
import JobQueue.Proofs.Json.Numeral
import JobQueue.Proofs.Json.Text

/-!
# Shapes of values

What the theorems on reading and writing say of a value: what holds of every value
inside of it (`Json.Every`), how deep its brackets nest (`Json.depth`), and where in
its compact text the first bracket stands that is inside of too many others
(`Json.tooDeepAt?`, which is none exactly for values that are not too deep).

The values of interest hold no floating-point number (`Json.NoFloat`) and are in the
form that reading gives (`Json.Regular`): their whole numbers have 64 bits, and the
fields of each object ascend.
-/

namespace JobQueue

namespace Json

/-! ## Every value inside of a value -/

mutual

/-- Whether something holds of a value and of every value inside of it. -/
def Every (p : Json → Prop) : Json → Prop
  | arr items => p (arr items) ∧ EveryItem p items
  | obj fields => p (obj fields) ∧ EveryField p fields
  | v => p v

/-- Whether something holds of every value inside of the items of an array. -/
def EveryItem (p : Json → Prop) : List Json → Prop
  | [] => True
  | v :: rest => Every p v ∧ EveryItem p rest

/-- Whether something holds of every value inside of the fields of an object. -/
def EveryField (p : Json → Prop) : List (String × Json) → Prop
  | [] => True
  | (_, v) :: rest => Every p v ∧ EveryField p rest

end

section Every

variable {p : Json → Prop}

theorem everyItem_iff {items : List Json} : EveryItem p items ↔ ∀ v ∈ items, Every p v := by
  induction items with
  | nil => exact iff_of_true trivial (List.forall_mem_nil _)
  | cons v rest ih =>
    rw [List.forall_mem_cons]
    exact and_congr_right' ih

theorem everyField_iff {fields : List (String × Json)} :
    EveryField p fields ↔ ∀ f ∈ fields, Every p f.2 := by
  induction fields with
  | nil => exact iff_of_true trivial (List.forall_mem_nil _)
  | cons f rest ih =>
    rw [List.forall_mem_cons]
    exact and_congr_right' ih

@[simp] theorem every_null : Every p null ↔ p null := Iff.rfl

@[simp] theorem every_bool (b : Bool) : Every p (bool b) ↔ p (bool b) := Iff.rfl

@[simp] theorem every_int (n : Int) : Every p (int n) ↔ p (int n) := Iff.rfl

@[simp] theorem every_float (x : Binary64) : Every p (float x) ↔ p (float x) := Iff.rfl

@[simp] theorem every_str (s : String) : Every p (str s) ↔ p (str s) := Iff.rfl

@[simp] theorem every_arr (items : List Json) :
    Every p (arr items) ↔ p (arr items) ∧ ∀ v ∈ items, Every p v :=
  and_congr_right' everyItem_iff

@[simp] theorem every_obj (fields : List (String × Json)) :
    Every p (obj fields) ↔ p (obj fields) ∧ ∀ f ∈ fields, Every p f.2 :=
  and_congr_right' everyField_iff

end Every

/-- Whether a value holds no floating-point number. -/
def NoFloat : Json → Prop := Every fun
  | float _ => False
  | _ => True

/-- Whether a value is in the form that reading gives: its whole numbers have 64
bits, and the fields of each object ascend. -/
def Regular : Json → Prop := Every fun
  | int n => Fits n
  | obj fields => Ascending fields
  | _ => True

@[simp] theorem regular_null : Regular null := trivial

@[simp] theorem regular_bool (b : Bool) : Regular (bool b) := trivial

@[simp] theorem regular_int {n : Int} : Regular (int n) ↔ Fits n := Iff.rfl

@[simp] theorem regular_float (x : Binary64) : Regular (float x) := trivial

@[simp] theorem regular_str (s : String) : Regular (str s) := trivial

@[simp] theorem regular_arr {items : List Json} :
    Regular (arr items) ↔ ∀ v ∈ items, v.Regular :=
  (every_arr items).trans ⟨And.right, And.intro trivial⟩

@[simp] theorem regular_obj {fields : List (String × Json)} :
    Regular (obj fields) ↔ Ascending fields ∧ ∀ f ∈ fields, f.2.Regular :=
  every_obj fields

@[simp] theorem noFloat_null : NoFloat null := trivial

@[simp] theorem noFloat_bool (b : Bool) : NoFloat (bool b) := trivial

@[simp] theorem noFloat_int (n : Int) : NoFloat (int n) := trivial

@[simp] theorem not_noFloat_float (x : Binary64) : ¬ NoFloat (float x) := id

@[simp] theorem noFloat_str (s : String) : NoFloat (str s) := trivial

@[simp] theorem noFloat_arr {items : List Json} :
    NoFloat (arr items) ↔ ∀ v ∈ items, v.NoFloat :=
  (every_arr items).trans ⟨And.right, And.intro trivial⟩

@[simp] theorem noFloat_obj {fields : List (String × Json)} :
    NoFloat (obj fields) ↔ ∀ f ∈ fields, f.2.NoFloat :=
  (every_obj fields).trans ⟨And.right, And.intro trivial⟩

/-! ## Depth -/

mutual

/-- How many brackets nest in a value. -/
def depth : Json → Nat
  | arr items => depthOfItems items + 1
  | obj fields => depthOfFields fields + 1
  | _ => 0

/-- How many brackets nest in the items of an array. -/
def depthOfItems : List Json → Nat
  | [] => 0
  | v :: rest => max (depth v) (depthOfItems rest)

/-- How many brackets nest in the fields of an object. -/
def depthOfFields : List (String × Json) → Nat
  | [] => 0
  | (_, v) :: rest => max (depth v) (depthOfFields rest)

end

theorem depthOfItems_le_iff {items : List Json} {n : Nat} :
    depthOfItems items ≤ n ↔ ∀ v ∈ items, depth v ≤ n := by
  induction items with
  | nil => exact iff_of_true (Nat.zero_le n) (List.forall_mem_nil _)
  | cons v rest ih =>
    rw [List.forall_mem_cons]
    exact Nat.max_le.trans (and_congr_right' ih)

theorem depthOfFields_le_iff {fields : List (String × Json)} {n : Nat} :
    depthOfFields fields ≤ n ↔ ∀ f ∈ fields, depth f.2 ≤ n := by
  induction fields with
  | nil => exact iff_of_true (Nat.zero_le n) (List.forall_mem_nil _)
  | cons f rest ih =>
    rw [List.forall_mem_cons]
    exact Nat.max_le.trans (and_congr_right' ih)

/-- Whether a value holds no floating-point number, is in the form that reading
gives, and nests at most `levels` brackets. -/
structure IsPlain (levels : Nat) (v : Json) : Prop where
  /-- It is in the form that reading gives. -/
  regular : v.Regular
  /-- It holds no floating-point number. -/
  noFloat : v.NoFloat
  /-- At most so many brackets nest in it. -/
  shallow : v.depth ≤ levels

theorem IsPlain.mono {m n : Nat} {v : Json} (plain : v.IsPlain m) (le : m ≤ n) : v.IsPlain n :=
  ⟨plain.regular, plain.noFloat, Nat.le_trans plain.shallow le⟩

theorem isPlain_null : IsPlain 0 null := ⟨regular_null, noFloat_null, Nat.le_refl 0⟩

theorem isPlain_bool (b : Bool) : IsPlain 0 (bool b) :=
  ⟨regular_bool b, noFloat_bool b, Nat.le_refl 0⟩

theorem isPlain_int {n : Int} (fits : Fits n) : IsPlain 0 (int n) :=
  ⟨regular_int.mpr fits, noFloat_int n, Nat.le_refl 0⟩

theorem isPlain_str (s : String) : IsPlain 0 (str s) :=
  ⟨regular_str s, noFloat_str s, Nat.le_refl 0⟩

theorem isPlain_arr {levels : Nat} {items : List Json} (plain : ∀ v ∈ items, v.IsPlain levels) :
    IsPlain (levels + 1) (arr items) where
  regular := regular_arr.mpr fun v mem => (plain v mem).regular
  noFloat := noFloat_arr.mpr fun v mem => (plain v mem).noFloat
  shallow := Nat.succ_le_succ (depthOfItems_le_iff.mpr fun v mem => (plain v mem).shallow)

theorem isPlain_obj {levels : Nat} {fields : List (String × Json)} (ascending : Ascending fields)
    (plain : ∀ f ∈ fields, f.2.IsPlain levels) : IsPlain (levels + 1) (obj fields) where
  regular := regular_obj.mpr ⟨ascending, fun f mem => (plain f mem).regular⟩
  noFloat := noFloat_obj.mpr fun f mem => (plain f mem).noFloat
  shallow := Nat.succ_le_succ (depthOfFields_le_iff.mpr fun f mem => (plain f mem).shallow)

/-- Where the first item of an array has what `at?` finds in a value. -/
def itemAt? (at? : Json → Option Nat) : List Json → Option Nat
  | [] => none
  | v :: rest =>
    match at? v with
    | some k => some k
    | none => (itemAt? at? rest).map (v.bytes.length + 1 + ·)

/-- Where the first field of an object has what `at?` finds in a value. -/
def fieldAt? (at? : Json → Option Nat) : List (String × Json) → Option Nat
  | [] => none
  | (n, v) :: rest =>
    match at? v with
    | some k => some ((textBytes n).length + 1 + k)
    | none =>
      (fieldAt? at? rest).map fun k => (textBytes n).length + 1 + (v.bytes.length + 1 + k)

/-- Where in the compact text of a value the first bracket stands that is inside of
`levels` others. -/
def tooDeepAt? : Nat → Json → Option Nat
  | 0, arr _ => some 0
  | 0, obj _ => some 0
  | levels + 1, arr items => (itemAt? (tooDeepAt? levels) items).map (1 + ·)
  | levels + 1, obj fields => (fieldAt? (tooDeepAt? levels) fields).map (1 + ·)
  | _, _ => none

theorem itemAt?_cons (at? : Json → Option Nat) (v : Json) (rest : List Json) :
    itemAt? at? (v :: rest) =
      (at? v).or ((itemAt? at? rest).map (v.bytes.length + 1 + ·)) := by
  simp only [itemAt?]
  cases at? v <;> rfl

theorem fieldAt?_cons (at? : Json → Option Nat) (f : String × Json)
    (rest : List (String × Json)) :
    fieldAt? at? (f :: rest) =
      ((at? f.2).or ((fieldAt? at? rest).map (f.2.bytes.length + 1 + ·))).map
        ((textBytes f.1).length + 1 + ·) := by
  simp only [fieldAt?]
  cases at? f.2 with
  | some k => rfl
  | none => cases fieldAt? at? rest <;> rfl

theorem itemAt?_eq_none {at? : Json → Option Nat} {items : List Json} :
    itemAt? at? items = none ↔ ∀ v ∈ items, at? v = none := by
  induction items with
  | nil => exact iff_of_true rfl (List.forall_mem_nil _)
  | cons v rest ih => simp [itemAt?_cons, ih]

theorem fieldAt?_eq_none {at? : Json → Option Nat} {fields : List (String × Json)} :
    fieldAt? at? fields = none ↔ ∀ f ∈ fields, at? f.2 = none := by
  induction fields with
  | nil => exact iff_of_true rfl (List.forall_mem_nil _)
  | cons f rest ih =>
    simp only [fieldAt?_cons, Option.map_eq_none_iff, Option.or_eq_none_iff, ih,
      List.forall_mem_cons]

/-- A value in which at most `levels` brackets nest has no bracket that is too deep. -/
theorem tooDeepAt?_eq_none {levels : Nat} {v : Json} :
    tooDeepAt? levels v = none ↔ v.depth ≤ levels := by
  induction levels generalizing v with
  | zero => cases v <;> simp [tooDeepAt?, depth]
  | succ levels ih =>
    cases v with
    | arr items => simp [tooDeepAt?, depth, itemAt?_eq_none, depthOfItems_le_iff, ih]
    | obj fields => simp [tooDeepAt?, depth, fieldAt?_eq_none, depthOfFields_le_iff, ih]
    | _ => simp [tooDeepAt?, depth]

example : (arr [int 7, arr [null]]).tooDeepAt? 1 = some 3 := by decide +kernel

theorem bytes_arr_append (items : List Json) (s : Bytes) :
    (arr items).bytes ++ s = 0x5B :: (itemBytes items ++ 0x5D :: s) := by
  simp [bytes_arr]

theorem bytes_obj_append (fields : List (String × Json)) (s : Bytes) :
    (obj fields).bytes ++ s = 0x7B :: (fieldBytes fields ++ 0x7D :: s) := by
  simp [bytes_obj]

theorem drop_past (s : Bytes) (b : UInt8) (t : Bytes) (k : Nat) :
    (s ++ b :: t).drop (s.length + 1 + k) = t.drop k := by
  rw [Nat.add_assoc, ← List.drop_drop, List.drop_left, Nat.add_comm, List.drop_succ_cons]

/-- Whether a bracket that opens an array or an object stands at a place of a text. -/
def BracketAt (s : Bytes) (k : Nat) : Prop :=
  (s.drop k).head? = some 0x5B ∨ (s.drop k).head? = some 0x7B

theorem BracketAt.lt {s : Bytes} {k : Nat} (bracket : BracketAt s k) : k < s.length := by
  rcases Nat.lt_or_ge k s.length with inside | outside
  · exact inside
  · simp [BracketAt, List.drop_of_length_le outside] at bracket

theorem BracketAt.append {s : Bytes} {k : Nat} (bracket : BracketAt s k) (t : Bytes) :
    BracketAt (s ++ t) k := by
  have inside := bracket.lt
  simpa [BracketAt, List.head?_drop, List.getElem?_append_left inside] using bracket

theorem BracketAt.past {t : Bytes} {k : Nat} (bracket : BracketAt t k) (s : Bytes) (b : UInt8) :
    BracketAt (s ++ b :: t) (s.length + 1 + k) := by
  simpa only [BracketAt, drop_past] using bracket

theorem bracketAt_itemBytes {at? : Json → Option Nat} {items : List Json} {k : Nat}
    (bracket : ∀ v ∈ items, ∀ k, at? v = some k → BracketAt v.bytes k)
    (found : itemAt? at? items = some k) : BracketAt (itemBytes items) k := by
  induction items generalizing k with
  | nil => cases found
  | cons v rest ih =>
    have later := fun {k} => ih (k := k) fun w mem => bracket w (List.mem_cons_of_mem _ mem)
    simp only [itemAt?] at found
    split at found
    next first =>
      cases found
      have there := bracket v List.mem_cons_self _ first
      cases rest with
      | nil => exact there
      | cons w rest => exact there.append _
    next =>
      obtain ⟨j, inner, rfl⟩ := Option.map_eq_some_iff.mp found
      cases rest with
      | nil => cases inner
      | cons w rest => exact (later inner).past _ _

theorem bracketAt_fieldBytes {at? : Json → Option Nat} {fields : List (String × Json)} {k : Nat}
    (bracket : ∀ f ∈ fields, ∀ k, at? f.2 = some k → BracketAt f.2.bytes k)
    (found : fieldAt? at? fields = some k) : BracketAt (fieldBytes fields) k := by
  induction fields generalizing k with
  | nil => cases found
  | cons f rest ih =>
    have later := fun {k} => ih (k := k) fun g mem => bracket g (List.mem_cons_of_mem _ mem)
    simp only [fieldAt?] at found
    split at found
    next first =>
      cases found
      have there := bracket f List.mem_cons_self _ first
      cases rest with
      | nil => exact there.past _ _
      | cons g rest =>
        simp only [fieldBytes_cons_cons, List.append_assoc, List.cons_append]
        exact (there.append _).past _ _
    next =>
      obtain ⟨j, inner, rfl⟩ := Option.map_eq_some_iff.mp found
      cases rest with
      | nil => cases inner
      | cons g rest =>
        simp only [fieldBytes_cons_cons, List.append_assoc, List.cons_append]
        exact ((later inner).past _ _).past _ _

/-- Where a value is too deep, a bracket is opened. -/
theorem bracketAt_of_tooDeepAt? {levels : Nat} {v : Json} {k : Nat}
    (found : v.tooDeepAt? levels = some k) : BracketAt v.bytes k := by
  induction levels generalizing v k with
  | zero =>
    cases v with
    | arr items => cases found; exact .inl rfl
    | obj fields => cases found; exact .inr rfl
    | _ => cases found
  | succ levels ih =>
    cases v with
    | arr items =>
      obtain ⟨j, inner, rfl⟩ := Option.map_eq_some_iff.mp found
      have inside := bracketAt_itemBytes (fun v _ k => ih) inner
      simpa [bytes_arr] using (inside.append [0x5D]).past [] 0x5B
    | obj fields =>
      obtain ⟨j, inner, rfl⟩ := Option.map_eq_some_iff.mp found
      have inside := bracketAt_fieldBytes (fun f _ k => ih) inner
      simpa [bytes_obj] using (inside.append [0x7D]).past [] 0x7B
    | _ => cases found

/-! ## First bytes -/

/-- Whether a text starts with a value: neither with a blank nor with the end of an
array. -/
def Begins : Bytes → Prop
  | [] => False
  | b :: _ => isGap b = false ∧ b ≠ 0x5D

theorem Begins.append {s : Bytes} (begins : Begins s) (t : Bytes) : Begins (s ++ t) := by
  cases s with
  | nil => cases begins
  | cons b s => exact begins

theorem Begins.length_pos {s : Bytes} (begins : Begins s) : 0 < s.length := by
  cases s with
  | nil => cases begins
  | cons b s => simp

/-- What starts with a value has no blank to skip. -/
theorem Begins.skipGap {s : Bytes} (begins : Begins s) : skipGap s = s := by
  cases s with
  | nil => rfl
  | cons b s => exact skipGap_cons begins.1

theorem not_gap_of_digit {b : UInt8} (digit : isDigit b) : isGap b = false ∧ b ≠ 0x5D := by
  have inside : 0x30 ≤ b ∧ b ≤ 0x39 := by
    simp only [isDigit, digitValue?] at digit
    split at digit
    · assumption
    · cases digit
  constructor
  · cases gap : isGap b with
    | false => rfl
    | true =>
      have blank : b = 0x20 ∨ b = 0x0A ∨ b = 0x0D ∨ b = 0x09 := by
        simpa [isGap, or_assoc] using gap
      rcases blank with rfl | rfl | rfl | rfl <;> exact absurd inside.1 (by decide)
  · rintro rfl
    exact absurd inside.2 (by decide)

theorem begins_textBytes (s : String) : Begins (textBytes s) := ⟨by decide, by decide⟩

theorem begins_intBytes (n : Int) : Begins (intBytes n) := by
  obtain ⟨b, t, eq, rfl | digit⟩ := intBytes_cases n
  · rw [eq]
    exact ⟨by decide, by decide⟩
  · rw [eq]
    exact not_gap_of_digit digit

theorem begins_bytes {v : Json} (noFloat : v.NoFloat) : Begins v.bytes := by
  cases v with
  | null => exact ⟨by decide, by decide⟩
  | bool b => cases b <;> exact ⟨by decide, by decide⟩
  | int n => exact begins_intBytes n
  | float x => exact absurd noFloat (not_noFloat_float x)
  | str s => exact begins_textBytes s
  | arr items => exact ⟨by decide, by decide⟩
  | obj fields => exact ⟨by decide, by decide⟩

/-! ## Control characters -/

theorem printable_asciiBytes {s : List Char}
    (printable : ∀ c ∈ s, 0x20 ≤ c.toNat ∧ c.toNat < 0x80) : ∀ b ∈ asciiBytes s, 0x20 ≤ b := by
  intro b mem
  obtain ⟨c, inside, rfl⟩ := List.mem_map.mp mem
  obtain ⟨low, high⟩ := printable c inside
  rw [UInt8.le_iff_toNat_le, UInt8.toNat_ofNat', Nat.mod_eq_of_lt (by omega)]
  exact low

theorem printable_textBytes {s : String} {b : UInt8} (mem : b ∈ textBytes s) : 0x20 ≤ b := by
  simp only [textBytes, List.cons_append, List.mem_cons, List.mem_append, List.mem_flatMap,
    List.not_mem_nil, or_false] at mem
  rcases mem with rfl | ⟨c, -, mem⟩ | rfl
  · decide
  · exact printable_escapedByte mem
  · decide

theorem printable_intBytes {n : Int} {b : UInt8} (mem : b ∈ intBytes n) : 0x20 ≤ b := by
  have digits : ∀ b ∈ asciiBytes (Nat.toDigits 10 n.natAbs), 0x20 ≤ b := by
    refine printable_asciiBytes fun c mem => ?_
    have digit := Nat.isDigit_of_mem_toDigits (by decide) (by decide) mem
    obtain ⟨low, high⟩ := Char.isDigit_iff_toNat.mp digit
    exact ⟨Nat.le_trans (by decide) low, Nat.lt_of_le_of_lt high (by decide)⟩
  simp only [intBytes] at mem
  split at mem
  · rcases List.mem_cons.mp mem with rfl | mem
    · decide
    · exact digits b mem
  · exact digits b mem

mutual

/-- Nothing that is written of a value is a control character. -/
theorem printable_bytes : ∀ {v : Json}, v.NoFloat → ∀ b ∈ v.bytes, 0x20 ≤ b
  | null, _ => printable_asciiBytes (by simp)
  | bool true, _ => printable_asciiBytes (by simp)
  | bool false, _ => printable_asciiBytes (by simp)
  | int _, _ => fun _ => printable_intBytes
  | float x, noFloat => absurd noFloat (not_noFloat_float x)
  | str _, _ => fun _ => printable_textBytes
  | arr items, noFloat => by
    intro b mem
    have inside := printable_itemBytes (noFloat_arr.mp noFloat)
    simp only [bytes_arr, List.cons_append, List.mem_cons, List.mem_append, List.not_mem_nil,
      or_false] at mem
    rcases mem with rfl | mem | rfl
    · decide
    · exact inside b mem
    · decide
  | obj fields, noFloat => by
    intro b mem
    have inside := printable_fieldBytes (noFloat_obj.mp noFloat)
    simp only [bytes_obj, List.cons_append, List.mem_cons, List.mem_append, List.not_mem_nil,
      or_false] at mem
    rcases mem with rfl | mem | rfl
    · decide
    · exact inside b mem
    · decide

theorem printable_itemBytes : ∀ {items : List Json}, (∀ v ∈ items, v.NoFloat) →
    ∀ b ∈ itemBytes items, 0x20 ≤ b
  | [], _ => List.forall_mem_nil _
  | [v], noFloat => printable_bytes (noFloat v List.mem_cons_self)
  | v :: w :: rest, noFloat => by
    intro b mem
    have first := printable_bytes (noFloat v List.mem_cons_self)
    have later := printable_itemBytes fun u mem => noFloat u (List.mem_cons_of_mem v mem)
    simp only [itemBytes_cons_cons, List.mem_append, List.mem_cons] at mem
    rcases mem with mem | rfl | mem
    · exact first b mem
    · decide
    · exact later b mem

theorem printable_fieldBytes : ∀ {fields : List (String × Json)}, (∀ f ∈ fields, f.2.NoFloat) →
    ∀ b ∈ fieldBytes fields, 0x20 ≤ b
  | [], _ => List.forall_mem_nil _
  | [(n, v)], noFloat => by
    intro b mem
    have first := printable_bytes (noFloat (n, v) List.mem_cons_self)
    simp only [fieldBytes_singleton, List.mem_append, List.mem_cons] at mem
    rcases mem with mem | rfl | mem
    · exact printable_textBytes mem
    · decide
    · exact first b mem
  | (n, v) :: g :: rest, noFloat => by
    intro b mem
    have first := printable_bytes (noFloat (n, v) List.mem_cons_self)
    have later := printable_fieldBytes fun f mem => noFloat f (List.mem_cons_of_mem (n, v) mem)
    simp only [fieldBytes_cons_cons, List.append_assoc, List.cons_append, List.mem_append,
      List.mem_cons] at mem
    rcases mem with mem | rfl | mem | rfl | mem
    · exact printable_textBytes mem
    · decide
    · exact first b mem
    · decide
    · exact later b mem

end

end Json

/-- A fault in a text without control characters is on its first line. -/
theorem Fault.message_ahead {s : Bytes} (printable : ∀ b ∈ s, 0x20 ≤ b) {k : Nat}
    (inside : k < s.length) (cause : Cause) :
    (Fault.ahead cause (s.drop k)).message s =
      s!"{cause.message} at line {1} column {k + 1}" := by
  have place : s.length - (s.length - k - 1) = k + 1 := by omega
  have noBreak : ∀ b ∈ s.take (k + 1), b ≠ 0x0A := by
    rintro b mem rfl
    exact absurd (printable _ (List.mem_of_mem_take mem)) (by decide)
  have line : (s.take (k + 1)).count 0x0A = 0 :=
    List.count_eq_zero.mpr fun mem => noBreak _ mem rfl
  have column : ((s.take (k + 1)).reverse.takeWhile (· ≠ 0x0A)).length = k + 1 := by
    rw [List.takeWhile_eq_self_iff.mpr (by simpa using noBreak), List.length_reverse,
      List.length_take]
    omega
  simp only [ahead, message, lineAndColumn, List.length_drop, place, line, column]

end JobQueue
