import JobQueue.Proofs.Codec.Envelope

/-!
# Jobs come back

A job is turned into a value in two steps: its payload has the fields in the order
of their declaration, and the data of its envelope has them in ascending order.  The
decoder of its kind takes the fields in the latter order.  So there is one lemma for
each kind that names the sorted payload, and one that follows the decoder through it
field by field; the numbers, options, lists and spans in it come back by a lemma
each.

Together with the way of an envelope through its bytes this is the way of a job
(`Codec.json_job_round_trip`).  It says nothing of jobs with pairs as keys, which
have no text.
-/

namespace JobQueue

namespace Json

/-! ## Parts of payloads -/

theorem asInt64_toInt (n : Int64) : asInt64 (.int n.toInt) = .ok n := by
  have low := n.le_toInt
  have high := n.toInt_lt
  have inside : -9223372036854775808 ≤ n.toInt ∧ n.toInt ≤ 9223372036854775807 := by omega
  simp [asInt64, asInt, inside, Except.map]

theorem asUInt64_ofNat {n : Nat} (h : n < 18446744073709551616) :
    asUInt64 (.int n) = .ok (UInt64.ofNat n) := by
  have inside : (n : Int) ≤ 18446744073709551615 := by omega
  simp [asUInt64, asInt, inside, Except.map]

theorem asUInt32_ofNat {n : Nat} (h : n < 4294967296) :
    asUInt32 (.int n) = .ok (UInt32.ofNat n) := by
  have inside : (n : Int) ≤ 4294967295 := by omega
  simp [asUInt32, asInt, inside, Except.map]

theorem asUInt64_toNat (n : UInt64) : asUInt64 (.int n.toNat) = .ok n := by
  rw [asUInt64_ofNat n.toNat_lt, UInt64.ofNat_toNat]

theorem asUInt32_toNat (n : UInt32) : asUInt32 (.int n.toNat) = .ok n := by
  rw [asUInt32_ofNat n.toNat_lt, UInt32.ofNat_toNat]

theorem asList_map {α : Type} {f : α → Json} {decode : Decoder α}
    (back : ∀ x, decode (f x) = .ok x) (xs : List α) :
    asList decode (.arr (xs.map f)) = .ok xs := by
  show (xs.map f).mapM decode = .ok xs
  induction xs with
  | nil => rfl
  | cons x xs ih =>
    rw [List.map_cons, List.mapM_cons, back, ih]
    rfl

theorem asOption_ofOption {α : Type} {f : α → Json} {decode : Decoder α}
    (back : ∀ x, decode (f x) = .ok x) (there : ∀ x, f x ≠ .null) (o : Option α) :
    asOption decode (ofOption f o) = .ok o := by
  cases o with
  | none => rfl
  | some x =>
    have value : asOption decode (f x) = (decode (f x)).map some := by
      cases eq : f x with
      | null => exact absurd eq (there x)
      | _ => rfl
    rw [ofOption, value, back]
    rfl

@[simp] theorem sorted_ofOption {α : Type} (f : α → Json) (o : Option α) :
    (ofOption f o).sorted = ofOption (fun x => (f x).sorted) o := by
  cases o <;> simp [ofOption, sorted]

theorem isPlain_ofOption {levels : Nat} {α : Type} {f : α → Json}
    (plain : ∀ x, (f x).IsPlain levels) (o : Option α) : (ofOption f o).IsPlain levels := by
  cases o with
  | none => exact isPlain_null.mono (Nat.zero_le levels)
  | some x => exact plain x

theorem isPlain_nat {n : Nat} (h : n < 18446744073709551616) : IsPlain 0 (.int n) :=
  isPlain_int ⟨by omega, by omega⟩

theorem sortedItems_texts (texts : List String) :
    sortedItems (texts.map str) = texts.map str := by
  induction texts with
  | nil => rfl
  | cons t rest ih => simp [sortedItems, sorted, ih]

theorem sortedFields_eq_map (fields : List (String × Json)) :
    sortedFields fields = fields.map fun f => (f.1, f.2.sorted) := by
  induction fields with
  | nil => rfl
  | cons f rest ih => simp [sortedFields, ih]

theorem sorted_obj (fields : List (String × Json)) :
    (obj fields).sorted = obj (sortNamed (fields.map fun f => (f.1, f.2.sorted))) := by
  rw [sorted, sortedFields_eq_map]

/-- An object whose fields are plain once they are sorted is plain once it is. -/
theorem isPlain_sorted_obj {levels : Nat} {fields : List (String × Json)}
    (plain : ∀ f ∈ fields, f.2.sorted.IsPlain levels) :
    (obj fields).sorted.IsPlain (levels + 1) := by
  rw [sorted_obj]
  refine isPlain_obj (pairwise_sortNamed _) fun f mem => ?_
  obtain ⟨g, inside, rfl⟩ := List.mem_map.mp (mem_sortNamed mem)
  exact plain g inside

/-! ## Records that are decoded -/

section Records

variable {σ α β : Type} {l : ValueLayout σ α}

/-- The next field is decoded and put to what is gathered. -/
theorem gatherNamed_known {name : String} {isThere : σ → Bool} {decode : Decoder β}
    {put : β → σ → σ} {mayLack : Bool} {v : Json} {x : β}
    (known : l.field? name = some (.decoded name isThere decode put mayLack))
    (back : decode v = .ok x) (got : σ) (rest : List (String × Json)) :
    gatherNamed l got ((name, v) :: rest) = gatherNamed l (put x got) rest := by
  simp only [gatherNamed, known, Field.decoded, back]
  rfl

theorem asRecord_obj {fields : List (String × Json)} {got : σ} {x : α}
    (gathered : gatherNamed l l.start fields = .ok got) (finish : l.finish got = .ok x) :
    asRecord l (.obj fields) = .ok x := by
  simp only [asRecord, gathered, ← finish]
  rfl

end Records

end Json

/-! ## Spans -/

namespace Span

theorem seconds_lt (d : Span) : d.seconds < 18446744073709551616 := by
  have inside := d.nanos_lt
  simp only [seconds, secondNanos, spanLimit] at inside ⊢
  omega

theorem subsecond_lt (d : Span) : d.subsecond < 4294967296 := by
  simp only [subsecond, secondNanos]
  omega

theorem sorted_json (d : Span) :
    d.json.sorted = .obj [("nanos", .int d.subsecond), ("secs", .int d.seconds)] := by
  simp only [json, Json.sorted_obj, Json.sorted, List.map_cons, List.map_nil, sortNamed,
    List.foldl_cons, List.foldl_nil, insertNamed, String.reduceLT, String.reduceEq, if_true,
    if_false]

theorem isPlain_sorted (d : Span) : d.json.sorted.IsPlain 1 := by
  have secs := Json.isPlain_nat d.seconds_lt
  have nanos := Json.isPlain_nat (Nat.lt_trans d.subsecond_lt (by decide))
  exact Json.isPlain_sorted_obj (by simp [Json.sorted, secs, nanos])

/-- The end of a span that was gathered, for any way to join its parts: that way is
left open so that no check of a proof unfolds the product with the nanoseconds of a
second. -/
theorem finish_of_join {d : Span} {secs : UInt64} {nanos : UInt32}
    (join : Nat → Nat → Option Span) (parts : join secs.toNat nanos.toNat = some d) :
    (do
      let secs ← Json.required "secs" (some secs)
      let nanos ← Json.required "nanos" (some nanos)
      match join secs.toNat nanos.toNat with
      | some span => .ok span
      | none => .error Mismatch.spanOverflow) = Except.ok d := by
  simp only [Json.required, bind, Except.bind, parts]

theorem finish_of_parts {d : Span} {secs : UInt64} {nanos : UInt32}
    (parts : ofParts? secs.toNat nanos.toNat = some d) :
    Draft.finish { secs := some secs, nanos := some nanos } = .ok d :=
  finish_of_join ofParts? parts

theorem ofJson_sorted (d : Span) : ofJson d.json.sorted = .ok d := by
  have secs := Json.asUInt64_ofNat d.seconds_lt
  have nanos := Json.asUInt32_ofNat d.subsecond_lt
  have parts : ofParts? (UInt64.ofNat d.seconds).toNat (UInt32.ofNat d.subsecond).toNat =
      some d := by
    rw [UInt64.toNat_ofNat_of_lt' d.seconds_lt, UInt32.toNat_ofNat_of_lt' d.subsecond_lt,
      ofParts?_parts]
  rw [sorted_json]
  generalize UInt64.ofNat d.seconds = s at secs parts
  generalize UInt32.ofNat d.subsecond = n at nanos parts
  refine Json.asRecord_obj ?_ (finish_of_parts parts)
  rw [Json.gatherNamed_known rfl nanos, Json.gatherNamed_known rfl secs]
  rfl

end Span

/-! ## The kinds of jobs -/

theorem CreateLog.sorted_json (p : CreateLog) :
    p.json.sorted =
      .obj [("action", .str p.action), ("loggable_id", .int p.loggableId.toInt)] := by
  simp only [json, Json.sorted_obj, Json.sorted, List.map_cons, List.map_nil, sortNamed,
    List.foldl_cons, List.foldl_nil, insertNamed, String.reduceLT, String.reduceEq, if_true,
    if_false]

theorem CreateLog.decode_sorted (p : CreateLog) :
    Json.asRecord layout p.json.sorted = .ok p := by
  have action : Json.asText (.str p.action) = .ok p.action := rfl
  have finish : layout.finish
      { loggableId := some p.loggableId, action := some p.action } = .ok p := rfl
  rw [sorted_json]
  refine Json.asRecord_obj ?_ finish
  rw [Json.gatherNamed_known rfl action,
    Json.gatherNamed_known rfl (Json.asInt64_toInt p.loggableId)]
  rfl

theorem CreateLog.isPlain_sorted (p : CreateLog) : p.json.sorted.IsPlain 1 := by
  have low := p.loggableId.le_toInt
  have high := p.loggableId.toInt_lt
  have id : Json.Fits p.loggableId.toInt := ⟨by omega, by omega⟩
  exact Json.isPlain_sorted_obj (by simp [Json.sorted, Json.isPlain_str, Json.isPlain_int id])

theorem ImportAccounts.sorted_json (p : ImportAccounts) :
    p.json.sorted =
      .obj [("company_id", .int p.companyId.toNat), ("file_path", .str p.filePath)] := by
  simp only [json, Json.sorted_obj, Json.sorted, List.map_cons, List.map_nil, sortNamed,
    List.foldl_cons, List.foldl_nil, insertNamed, String.reduceLT, String.reduceEq, if_true,
    if_false]

theorem ImportAccounts.decode_sorted (p : ImportAccounts) :
    Json.asRecord layout p.json.sorted = .ok p := by
  have path : Json.asText (.str p.filePath) = .ok p.filePath := rfl
  have finish : layout.finish
      { filePath := some p.filePath, companyId := some p.companyId } = .ok p := rfl
  rw [sorted_json]
  refine Json.asRecord_obj ?_ finish
  rw [Json.gatherNamed_known rfl (Json.asUInt64_toNat p.companyId),
    Json.gatherNamed_known rfl path]
  rfl

theorem ImportAccounts.isPlain_sorted (p : ImportAccounts) : p.json.sorted.IsPlain 1 := by
  have company := Json.isPlain_nat p.companyId.toNat_lt
  exact Json.isPlain_sorted_obj (by simp [Json.sorted, Json.isPlain_str, company])

theorem ProcessData.sorted_json (p : ProcessData) :
    p.json.sorted =
      .obj [("batch", .int p.batch.toNat), ("dry_run", .bool p.dryRun),
        ("note", .ofOption .str p.note), ("tags", .arr (p.tags.map .str))] := by
  simp only [json, Json.sorted_obj, Json.sorted_ofOption, Json.sorted, Json.sortedItems_texts,
    List.map_cons, List.map_nil, sortNamed, List.foldl_cons, List.foldl_nil, insertNamed,
    String.reduceLT, String.reduceEq, if_true, if_false]

theorem ProcessData.decode_sorted (p : ProcessData) :
    Json.asRecord layout p.json.sorted = .ok p := by
  have text : ∀ t, Json.asText (.str t) = .ok t := fun _ => rfl
  have dryRun : Json.asBool (.bool p.dryRun) = .ok p.dryRun := rfl
  have note := Json.asOption_ofOption text (by simp) p.note
  have finish : layout.finish
      { batch := some p.batch, tags := some p.tags, note := some p.note,
        dryRun := some p.dryRun } = .ok p := rfl
  rw [sorted_json]
  refine Json.asRecord_obj ?_ finish
  rw [Json.gatherNamed_known rfl (Json.asUInt32_toNat p.batch),
    Json.gatherNamed_known rfl dryRun, Json.gatherNamed_known rfl note,
    Json.gatherNamed_known rfl (Json.asList_map text p.tags)]
  rfl

theorem ProcessData.isPlain_sorted (p : ProcessData) : p.json.sorted.IsPlain 2 := by
  have batch := (Json.isPlain_nat (Nat.lt_trans p.batch.toNat_lt (by decide))).mono (Nat.zero_le 1)
  have dryRun := (Json.isPlain_bool p.dryRun).mono (Nat.zero_le 1)
  have note := (Json.isPlain_ofOption Json.isPlain_str p.note).mono (Nat.zero_le 1)
  have tags : (Json.arr (p.tags.map .str)).IsPlain 1 :=
    Json.isPlain_arr (by simp [Json.isPlain_str])
  exact Json.isPlain_sorted_obj
    (by simp [Json.sorted, Json.sortedItems_texts, batch, dryRun, note, tags])

theorem MyJob.sorted_json (p : MyJob) :
    p.json.sorted =
      .obj [("delay", .ofOption (fun d => d.json.sorted) p.delay), ("q", .ofOption .str p.q),
        ("retries", .ofOption (fun n => .int n.toNat) p.retries)] := by
  simp only [json, Json.sorted_obj, Json.sorted_ofOption, Json.sorted, List.map_cons, List.map_nil,
    sortNamed, List.foldl_cons, List.foldl_nil, insertNamed, String.reduceLT, String.reduceEq,
    if_true, if_false]

theorem MyJob.decode_sorted (p : MyJob) : Json.asRecord layout p.json.sorted = .ok p := by
  have text : ∀ t, Json.asText (.str t) = .ok t := fun _ => rfl
  have delay := Json.asOption_ofOption Span.ofJson_sorted (by simp [Span.sorted_json]) p.delay
  have q := Json.asOption_ofOption text (by simp) p.q
  have retries := Json.asOption_ofOption Json.asUInt32_toNat (by simp) p.retries
  have finish : layout.finish
      { q := some p.q, retries := some p.retries, delay := some p.delay } = .ok p := rfl
  rw [sorted_json]
  refine Json.asRecord_obj ?_ finish
  rw [Json.gatherNamed_known rfl delay, Json.gatherNamed_known rfl q,
    Json.gatherNamed_known rfl retries]
  rfl

theorem MyJob.isPlain_sorted (p : MyJob) : p.json.sorted.IsPlain 2 := by
  have delay := Json.isPlain_ofOption Span.isPlain_sorted p.delay
  have q := (Json.isPlain_ofOption Json.isPlain_str p.q).mono (Nat.zero_le 1)
  have retries := (Json.isPlain_ofOption
    (fun n : UInt32 => Json.isPlain_nat (Nat.lt_trans n.toNat_lt (by decide))) p.retries).mono
    (Nat.zero_le 1)
  exact Json.isPlain_sorted_obj (by simp [Json.sorted, delay, q, retries])

/-! ## Jobs -/

/-- The data of a job other than one with pairs as keys is decoded as that job, and
comes back from its text. -/
theorem Job.exists_data {j : Job} (record : j.kind ≠ .keyed) :
    ∃ v, j.data = .ok v ∧ j.kind.decode v = .ok j ∧ v.IsPlain 2 := by
  cases j with
  | createLog p =>
    refine ⟨p.json.sorted, rfl, ?_, p.isPlain_sorted.mono (by decide)⟩
    exact congrArg (Except.map createLog) p.decode_sorted
  | importAccounts p =>
    refine ⟨p.json.sorted, rfl, ?_, p.isPlain_sorted.mono (by decide)⟩
    exact congrArg (Except.map importAccounts) p.decode_sorted
  | processData p =>
    refine ⟨p.json.sorted, rfl, ?_, p.isPlain_sorted⟩
    exact congrArg (Except.map processData) p.decode_sorted
  | mine p =>
    refine ⟨p.json.sorted, rfl, ?_, p.isPlain_sorted⟩
    exact congrArg (Except.map mine) p.decode_sorted
  | keyed p => exact absurd rfl record

theorem Envelope.kind_of_toJob {e : Envelope} {kind : JobKind} {j : Job}
    (taken : e.toJob kind = .ok j) : j.kind = kind := by
  simp only [toJob] at taken
  split at taken
  · next decoded =>
    cases taken
    exact JobKind.kind_of_decode decoded
  · cases taken

namespace Codec

theorem kind_of_decodeJob {c : Codec} {kind : JobKind} {b : Bytes} {j : Job}
    (decoded : c.decodeJob kind b = .ok j) : j.kind = kind := by
  simp only [decodeJob] at decoded
  cases read : c.decode b with
  | error e => simp [read, Except.bind] at decoded
  | ok e =>
    rw [read] at decoded
    exact Envelope.kind_of_toJob decoded

/-- The bytes of a job other than one with pairs as keys are those of an envelope
that comes back and of which that job is taken. -/
theorem exists_encodeJob {j : Job} (record : j.kind ≠ .keyed) :
    ∃ e, Envelope.ofJob j = .ok e ∧ e.type = j.tag ∧ e.toJob j.kind = .ok j ∧
      json.encodeJob j = .ok e.bytes ∧ json.decode e.bytes = .ok e := by
  obtain ⟨v, data, decoded, plain⟩ := Job.exists_data record
  have made : Envelope.ofJob j = .ok ⟨j.tag, v⟩ := Envelope.ofPosting_of_ok data
  refine ⟨⟨j.tag, v⟩, made, rfl, ?_, ?_, ?_⟩
  · simp only [Envelope.toJob, decoded]
  · simp only [encodeJob, made]
    rfl
  · exact Envelope.ofBytes_bytes (plain.mono (by decide))

/-- A job other than one with pairs as keys comes back from its envelope and from
its bytes, and so does whatever job the bytes of another hand were decoded as. -/
theorem json_job_round_trip :
    (∀ j : Job, j.kind ≠ .keyed →
      (∃ data, Envelope.ofJob j = .ok ⟨j.tag, data⟩ ∧
        (Envelope.mk j.tag data).toJob j.kind = .ok j) ∧
      ∃ b, json.encodeJob j = .ok b ∧ json.decodeJob j.kind b = .ok j) ∧
    ∀ kind : JobKind, kind ≠ .keyed → ∀ b j, json.decodeJob kind b = .ok j →
      ∃ b', json.encodeJob j = .ok b' ∧ json.decodeJob kind b' = .ok j ∧
        ∀ j', json.decodeJob kind b' = .ok j' → json.encodeJob j' = .ok b' := by
  have back : ∀ j : Job, j.kind ≠ .keyed →
      ∃ b, json.encodeJob j = .ok b ∧ json.decodeJob j.kind b = .ok j := by
    intro j record
    obtain ⟨e, -, -, taken, written, read⟩ := exists_encodeJob record
    refine ⟨e.bytes, written, ?_⟩
    simp only [decodeJob, read]
    exact taken
  refine ⟨fun j record => ⟨?_, back j record⟩, fun kind record b j decoded => ?_⟩
  · obtain ⟨⟨type, data⟩, made, rfl, taken, -⟩ := exists_encodeJob record
    exact ⟨data, made, taken⟩
  · obtain rfl := kind_of_decodeJob decoded
    obtain ⟨b', written, read⟩ := back j record
    refine ⟨b', written, read, fun j' again => ?_⟩
    rw [read] at again
    cases again
    exact written

/-- A job that waits for the longest span. -/
def longestDelay : Job := .mine ⟨none, none, some .longest⟩

theorem json_job_round_trip_of_example :
    (∃ data, Envelope.ofJob longestDelay = .ok ⟨"my:job", data⟩ ∧
        (Envelope.mk "my:job" data).toJob .mine = .ok longestDelay) ∧
      json.decodeJob .mine
          (Bytes.ofText "[\"t\", \x7b\"delay\": [18446744073709551614, 1999999999], \"x\": 0\x7d]") =
        .ok longestDelay ∧
      ∃ b, json.encodeJob longestDelay = .ok b ∧ json.decodeJob .mine b = .ok longestDelay := by
  have decoded : json.decodeJob .mine
      (Bytes.ofText "[\"t\", \x7b\"delay\": [18446744073709551614, 1999999999], \"x\": 0\x7d]") =
      .ok longestDelay := by decide +kernel
  obtain ⟨envelope, -⟩ := json_job_round_trip.1 longestDelay (by decide)
  obtain ⟨b, written, back, -⟩ := json_job_round_trip.2 .mine (by decide) _ _ decoded
  exact ⟨envelope, decoded, b, written, back⟩

end Codec

end JobQueue
