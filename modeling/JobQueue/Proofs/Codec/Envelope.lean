import JobQueue.Envelope
import JobQueue.Proofs.Json.Record

/-!
# Envelopes come back

An envelope comes back from its bytes if its data nests at most 126 brackets, and
else its bytes are refused at the first bracket inside of 127 others, the one that
is opened around the envelope itself among them (`Envelope.reader_written`).  The
reader of envelopes is not the reader of values: it takes the two fields by name,
and reads a value for the second one.

Whatever bytes an envelope was read from, its data is in the form that reading gives
and not too deep (`Envelope.of_reader`), so the envelope can be written and read
again.
-/

namespace JobQueue

namespace Envelope

open Json (Begins Stops ReadsBack outcome outcome_none outcome_some nestingLimit)

/-! ## Envelopes that are written -/

theorem depth_json (e : Envelope) : e.json.depth = e.data.depth + 1 := by
  simp [json, Json.depth, Json.depthOfFields]

/-- The bytes of an envelope, as its reader takes them apart. -/
theorem bytes_append (e : Envelope) (s : Bytes) :
    e.bytes ++ s = 0x7B :: (Json.textBytes "type" ++ 0x3A :: (Json.textBytes e.type ++
      0x2C :: (Json.textBytes "data" ++ 0x3A :: (e.data.bytes ++ 0x7D :: s)))) := by
  simp [bytes, json, Json.bytes, Json.fieldBytes]

theorem tooDeepAt?_json (e : Envelope) (levels : Nat) :
    e.json.tooDeepAt? (levels + 1) = (e.data.tooDeepAt? levels).map fun k =>
      1 + ((Json.textBytes "type").length + 1 + ((Json.textBytes e.type).length + 1 +
        ((Json.textBytes "data").length + 1 + k))) := by
  have tag : (Json.str e.type).tooDeepAt? levels = none := by cases levels <;> rfl
  cases eq : e.data.tooDeepAt? levels <;>
    simp [json, Json.tooDeepAt?, Json.fieldAt?, tag, eq, Json.bytes]

/-- The fields of an envelope are gathered up to the value of its data. -/
theorem namedFields_written (levels n : Nat) (e : Envelope) (s : Bytes) :
    Json.namedFields layout levels (n + 3) true {} (Json.textBytes "type" ++ 0x3A ::
        (Json.textBytes e.type ++ 0x2C :: (Json.textBytes "data" ++ 0x3A :: s))) =
      match Json.value levels s with
      | .error f => .error f
      | .ok (v, s) =>
        Json.namedFields layout levels (n + 1) false { type := some e.type, data := some v } s := by
  have first : layout.field? "type" = some (.scanned "type" (·.type.isSome)
    (fun _ => Json.textValue) fun v d => { d with type := some v }) := rfl
  have second : layout.field? "data" = some (.scanned "data" (·.data.isSome) Json.value
    fun v d => { d with data := some v }) := rfl
  rw [Json.namedFields_known first rfl]
  simp only [Json.Field.scanned, Json.textValue_written, Except.map]
  rw [Json.textBytes_append "data", Json.namedFields_comma, ← Json.textBytes_append,
    Json.namedFields_known second rfl]
  simp only [Json.Field.scanned]
  cases Json.value levels s <;> rfl

/-- An envelope comes back, or its reading stops at the first bracket of its data
that is too deep. -/
theorem reader_written (levels : Nat) {e : Envelope} (regular : e.data.Regular)
    (noFloat : e.data.NoFloat) :
    ReadsBack (reader (levels + 1)) (Json.tooDeepAt? (levels + 1)) json e := by
  refine ⟨⟨by decide, by decide⟩, fun s stops => ?_⟩
  have data := (Json.value_written levels regular noFloat).2 (0x7D :: s) (Json.stops_brace s)
  rw [id] at data
  show reader (levels + 1) (e.bytes ++ s) =
    outcome (e.json.tooDeepAt? (levels + 1)) (e.bytes ++ s) (e, s)
  rw [bytes_append, tooDeepAt?_json]
  generalize long : Json.textBytes "type" ++ 0x3A :: (Json.textBytes e.type ++
    0x2C :: (Json.textBytes "data" ++ 0x3A :: (e.data.bytes ++ 0x7D :: s))) = t
  obtain ⟨n, room⟩ : ∃ n, t.length + 1 = n + 3 := ⟨t.length - 2, by
    rw [← long]
    simp only [List.length_append, List.length_cons]
    omega⟩
  have gathered := namedFields_written levels n e (e.data.bytes ++ 0x7D :: s)
  rw [data, long, ← room] at gathered
  cases found : e.data.tooDeepAt? levels with
  | none =>
    rw [found] at gathered
    simp only [outcome_none, Json.namedFields_end] at gathered
    exact Json.recordValue_ok gathered rfl
  | some k =>
    rw [found] at gathered
    simp only [outcome_some] at gathered
    rw [reader, Json.recordValue_error gathered]
    simp only [outcome_some, Option.map_some, ← long, Nat.add_comm 1 (_ + _), List.drop_succ_cons,
      Json.drop_past]
    rfl

/-- The bytes of an envelope are read as that envelope, or refused at the first
bracket that is too deep, on their only line. -/
theorem ofBytes_written {e : Envelope} (regular : e.data.Regular) (noFloat : e.data.NoFloat) :
    ofBytes e.bytes = match e.json.tooDeepAt? nestingLimit with
      | none => .ok e
      | some k =>
        .error (.envelopeMalformed s!"recursion limit exceeded at line 1 column {k + 1}") := by
  have read := (reader_written 126 regular noFloat).2 [] Json.stops_nil
  rw [List.append_nil] at read
  have noFloat : e.json.NoFloat := by simpa [json] using noFloat
  cases found : e.json.tooDeepAt? nestingLimit with
  | none =>
    rw [found] at read
    have all : Json.whole (reader nestingLimit) e.bytes = .ok e := by
      simp only [Json.whole, bytes, read, outcome_none]
      rfl
    simp only [ofBytes, all]
  | some k =>
    rw [found] at read
    have all : Json.whole (reader nestingLimit) e.bytes =
        .error (.ahead .nesting (e.bytes.drop k)) := by
      simp only [Json.whole, bytes, read, outcome_some]
    have place := (Json.bracketAt_of_tooDeepAt? found).lt
    have words := Fault.message_ahead (Json.printable_bytes noFloat) place .nesting
    have joined : Cause.nesting.message ++ " at line " ++ toString 1 ++ " column " =
        "recursion limit exceeded at line 1 column " := by decide
    have reason : (Fault.ahead .nesting (e.bytes.drop k)).message e.bytes =
        s!"recursion limit exceeded at line 1 column {k + 1}" :=
      words.trans (congrArg (· ++ toString (k + 1)) joined)
    simp only [ofBytes, all, reason]

theorem ofBytes_bytes {e : Envelope} (plain : e.data.IsPlain 126) : ofBytes e.bytes = .ok e := by
  have fits : e.json.tooDeepAt? nestingLimit = none := by
    rw [Json.tooDeepAt?_eq_none, depth_json]
    exact Nat.succ_le_succ plain.shallow
  simp only [ofBytes_written plain.regular plain.noFloat, fits]

/-! ## Envelopes that are read -/

theorem data_of_finish {d : Draft} {e : Envelope} (finish : layout.finish d = .ok e) :
    d.data = some e.data := by
  obtain ⟨type, data⟩ := d
  cases type with
  | none => cases finish
  | some type =>
    cases data with
    | none => cases finish
    | some data =>
      cases finish
      rfl

/-- Whether the data that was gathered, if there is any, is in the form that reading
gives and not too deep. -/
def Draft.IsSound (levels : Nat) (d : Draft) : Prop :=
  ∀ v, d.data = some v → v.Regular ∧ v.depth ≤ levels

/-- Every field of an envelope that is read keeps what was gathered sound. -/
theorem keeps_isSound {levels : Nat} :
    ∀ field ∈ layout.fields, Json.Keeps (Draft.IsSound levels) levels field := by
  intro field mem s put rest read got start v there
  rcases List.mem_cons.mp mem with rfl | mem
  · obtain ⟨r, -, ⟨⟩⟩ := Json.map_eq_ok read
    exact start v there
  · obtain rfl := List.mem_singleton.mp mem
    obtain ⟨r, value, ⟨⟩⟩ := Json.map_eq_ok read
    cases there
    exact Json.value_sound value

/-- The data of an envelope that was read is in the form that reading gives and not
too deep. -/
theorem of_reader {levels : Nat} {s rest : Bytes} {e : Envelope}
    (read : reader (levels + 1) s = .ok (e, rest)) : e.data.Regular ∧ e.data.depth ≤ levels := by
  have start : layout.start.IsSound levels := fun v there => by cases there
  obtain ⟨got, inside, finish⟩ := Json.recordValue_sound keeps_isSound start read
  exact inside e.data (data_of_finish finish)

theorem of_ofBytes {b : Bytes} {e : Envelope} (read : ofBytes b = .ok e) :
    e.data.Regular ∧ e.data.depth ≤ 126 := by
  simp only [ofBytes, Json.whole] at read
  cases inner : reader nestingLimit b with
  | error f => simp [inner] at read
  | ok r =>
    cases done : Json.endText r.2 with
    | error f => simp [inner, done, Except.map] at read
    | ok u =>
      simp only [inner, done, Except.map] at read
      cases read
      exact of_reader inner

end Envelope

/-! ## The codec -/

namespace Codec

/-- An envelope with data in the form that reading gives comes back from its bytes,
unless they are refused where one bracket too many is opened; and whatever bytes an
envelope was read from, it comes back from the bytes that are written of it. -/
theorem json_round_trip :
    (∀ e : Envelope, e.data.Regular → e.data.NoFloat →
      (e.data.depth ≤ 126 → json.decode (json.encode e) = .ok e) ∧
      (126 < e.data.depth → ∃ k, e.json.tooDeepAt? 127 = some k ∧
        json.decode (json.encode e) =
          .error (.envelopeMalformed s!"recursion limit exceeded at line 1 column {k + 1}"))) ∧
    ∀ b e, json.decode b = .ok e → e.data.NoFloat →
      json.decode (json.encode e) = .ok e ∧
        ∀ e', json.decode (json.encode e) = .ok e' → json.encode e' = json.encode e := by
  refine ⟨fun e regular noFloat => ⟨fun shallow => ?_, fun deep => ?_⟩, ?_⟩
  · exact Envelope.ofBytes_bytes ⟨regular, noFloat, shallow⟩
  · cases found : e.json.tooDeepAt? 127 with
    | none =>
      have shallow := Json.tooDeepAt?_eq_none.mp found
      rw [Envelope.depth_json] at shallow
      omega
    | some k =>
      refine ⟨k, rfl, ?_⟩
      show Envelope.ofBytes e.bytes = _
      rw [Envelope.ofBytes_written regular noFloat, found]
  · intro b e read noFloat
    obtain ⟨regular, shallow⟩ := Envelope.of_ofBytes read
    have back : json.decode (json.encode e) = .ok e :=
      Envelope.ofBytes_bytes ⟨regular, noFloat, shallow⟩
    refine ⟨back, fun e' again => ?_⟩
    rw [back] at again
    cases again
    rfl

/-- The data of an envelope that nests one bracket too many. -/
def tooDeep : Json := Nat.repeat (fun v => .arr [v]) 127 .null

theorem json_round_trip_of_example :
    (json.decode (json.encode ⟨"t", .arr [.int (-9223372036854775808), .str "\"é\n"]⟩) =
        .ok ⟨"t", .arr [.int (-9223372036854775808), .str "\"é\n"]⟩) ∧
      (json.decode (json.encode ⟨"t", tooDeep⟩) =
        .error (.envelopeMalformed "recursion limit exceeded at line 1 column 146")) ∧
      json.decode (Bytes.ofText "[ \"t\", \x7b\"b\": 1, \"a\": [\"\\u00e9\"]\x7d]") =
        .ok ⟨"t", .obj [("a", .arr [.str "é"]), ("b", .int 1)]⟩ ∧
      json.decode (json.encode ⟨"t", .obj [("a", .arr [.str "é"]), ("b", .int 1)]⟩) =
        .ok ⟨"t", .obj [("a", .arr [.str "é"]), ("b", .int 1)]⟩ := by
  have regular : ∀ n, (Nat.repeat (fun v => Json.arr [v]) n .null).Regular ∧
      (Nat.repeat (fun v => Json.arr [v]) n .null).NoFloat := by
    intro n
    induction n with
    | zero => simp [Nat.repeat]
    | succ n ih => simpa [Nat.repeat] using ih
  have read : json.decode (Bytes.ofText "[ \"t\", \x7b\"b\": 1, \"a\": [\"\\u00e9\"]\x7d]") =
      .ok ⟨"t", .obj [("a", .arr [.str "é"]), ("b", .int 1)]⟩ := by
    rfl
  have place : (Envelope.json ⟨"t", tooDeep⟩).tooDeepAt? 127 = some 145 := by decide +kernel
  obtain ⟨k, found, refused⟩ := (json_round_trip.1 ⟨"t", tooDeep⟩ (regular 127).1
    (regular 127).2).2 (by decide +kernel)
  obtain rfl := Option.some.inj (place.symm.trans found)
  exact ⟨(json_round_trip.1 _ (by simp [Json.Fits]) (by simp)).1 (by decide), refused, read,
    (json_round_trip.2 _ _ read (by simp)).1⟩

end Codec

end JobQueue
