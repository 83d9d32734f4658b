import JobQueue.Envelope
import JobQueue.Proofs.Json.Fields

/-!
# Envelopes by way of values

The bytes of an envelope are not read as a value first: the reader of records takes the tag and
the data where it finds them and skips everything else.  It comes to the same.  Where a text is a
value, the envelope read from it is what stands under the two names in that value, or the two
items of an array (`Codec.json_decode_agrees`).

There are two differences.  A value keeps the last of two fields with the same name, while an
envelope with its tag or its data there twice is refused (`Envelope.spells_of_namedFields`).  And
what is skipped need not be a value, so an envelope may be read from a text that is none; but only
from an object with another key.
-/

namespace JobQueue

/-- The text that a value is, if it is one. -/
def Json.str? : Json → Option String
  | .str t => some t
  | _ => none

theorem Json.str?_eq_some_iff {v : Json} {t : String} : v.str? = some t ↔ v = .str t := by
  cases v <;> simp [str?]

namespace Envelope

open Json (KeyAt Takes keys? skipped nestingLimit)

variable {levels n : Nat} {first : Bool} {s rest : Bytes}

/-! ## One field -/

/-- The field of the tag. -/
abbrev typeField : Json.Field Draft (Nat → Reader (Draft → Draft)) :=
  .scanned "type" (·.type.isSome) (fun _ => Json.textValue) fun v d => { d with type := some v }

/-- The field of the data. -/
abbrev dataField : Json.Field Draft (Nat → Reader (Draft → Draft)) :=
  .scanned "data" (·.data.isSome) Json.value fun v d => { d with data := some v }

theorem field?_type : layout.field? "type" = some typeField := rfl

theorem field?_data : layout.field? "data" = some dataField := rfl

theorem typeField_read {s u : Bytes} {t : String} (read : Json.value levels s = .ok (.str t, u)) :
    typeField.read levels s = .ok (fun d => { d with type := some t }, u) := by
  show (Json.textValue s).map _ = _
  rw [Json.textValue_iff.mpr read]
  rfl

theorem dataField_read {s u : Bytes} {v : Json} (read : Json.value levels s = .ok (v, u)) :
    dataField.read levels s = .ok (fun d => { d with data := some v }, u) := by
  show (Json.value levels s).map _ = _
  rw [read]
  rfl

theorem field?_of_other {name : String} (tag : name ≠ "type") (data : name ≠ "data") :
    layout.field? name = none := by
  refine List.find?_eq_none.mpr fun field mem => ?_
  rcases List.mem_cons.mp mem with rfl | mem
  · exact fun eq => tag (of_decide_eq_true eq).symm
  · obtain rfl := List.mem_singleton.mp mem
    exact fun eq => data (of_decide_eq_true eq).symm

/-- A field of an envelope is its tag or its data, not gathered before, or it is skipped. -/
theorem takes_iff {got got' : Draft} {name : String} {u : Bytes} :
    Takes layout levels first got s name got' u ↔ ∃ w, KeyAt first s name w ∧
      ((name = "type" ∧ got.type = none ∧
          ∃ t, Json.value levels w = .ok (.str t, u) ∧ got' = { got with type := some t }) ∨
        (name = "data" ∧ got.data = none ∧
          ∃ v, Json.value levels w = .ok (v, u) ∧ got' = { got with data := some v }) ∨
        (name ≠ "type" ∧ name ≠ "data" ∧ Json.skipValue w = .ok u ∧ got' = got)) := by
  have isSome_eq_false {α : Type} {o : Option α} : o.isSome = false ↔ o = none := by simp
  constructor
  · rintro (⟨key, known, new, read⟩ | ⟨key, unknown, -, skip⟩)
    · refine ⟨_, key, ?_⟩
      by_cases tag : name = "type"
      · subst tag
        cases known
        obtain ⟨⟨t, x⟩, text, ⟨⟩⟩ := Json.map_eq_ok read
        exact .inl ⟨rfl, isSome_eq_false.mp new, t, Json.textValue_iff.mp text, rfl⟩
      · by_cases data : name = "data"
        · subst data
          cases known
          obtain ⟨⟨v, x⟩, value, ⟨⟩⟩ := Json.map_eq_ok read
          exact .inr (.inl ⟨rfl, isSome_eq_false.mp new, v, value, rfl⟩)
        · rw [field?_of_other tag data] at known
          cases known
    · refine ⟨_, key, .inr (.inr ⟨?_, ?_, skip, rfl⟩)⟩
      · rintro rfl
        cases unknown
      · rintro rfl
        cases unknown
  · rintro ⟨w, key, ⟨rfl, new, t, value, rfl⟩ | ⟨rfl, new, v, value, rfl⟩ | ⟨tag, data, skip, rfl⟩⟩
    · exact .known key field?_type (isSome_eq_false.mpr new) (typeField_read value)
    · exact .known key field?_data (isSome_eq_false.mpr new) (dataField_read value)
    · exact .unknown key (field?_of_other tag data) rfl skip

/-! ## All fields -/

/-- The keys of an object from where the envelope gathered so far is `got`: together with what is
gathered, neither the tag nor the data is there twice, and if there are no other keys, the fields
are read as values. -/
structure Spells (levels n : Nat) (first : Bool) (got : Draft) (s : Bytes) (keys : List String)
    (rest : Bytes) : Prop where
  fields : Json.fields skipped n first s = .ok (keys.map (·, ()), rest)
  tags : keys.count "type" + got.type.isSome.toNat ≤ 1
  datas : keys.count "data" + got.data.isSome.toNat ≤ 1
  parsed : (∀ name ∈ keys, name = "type" ∨ name = "data") →
    ∃ fs, Json.fields (Json.value levels) n first s = .ok (fs, rest)

theorem Spells.nil {got : Draft} (next : Json.nextKey first s = .ok (false, rest)) :
    Spells levels (n + 1) first got s [] rest where
  fields := Json.fields_nil_iff.mpr next
  tags := by simpa using Bool.toNat_le _
  datas := by simpa using Bool.toNat_le _
  parsed _ := ⟨[], Json.fields_nil_iff.mpr next⟩

/-- One key more, over a value that is skipped and, under the tag or the data, read. -/
theorem Spells.cons {got got' : Draft} {name : String} {keys : List String} {w u : Bytes}
    (later : Spells levels n false got' u keys rest) (key : KeyAt first s name w)
    (skip : Json.skipValue w = .ok u)
    (value : name = "type" ∨ name = "data" → ∃ v, Json.value levels w = .ok (v, u))
    (tags : (name :: keys).count "type" + got.type.isSome.toNat ≤ 1)
    (datas : (name :: keys).count "data" + got.data.isSome.toNat ≤ 1) :
    Spells levels (n + 1) first got s (name :: keys) rest where
  fields := by
    have skip : skipped w = .ok ((), u) := by rw [skipped, skip]; rfl
    exact Json.fields_cons_iff.mpr ⟨w, u, key, skip, later.fields⟩
  tags := tags
  datas := datas
  parsed known := by
    obtain ⟨v, value⟩ := value (known name List.mem_cons_self)
    obtain ⟨fs, all⟩ := later.parsed fun k mem => known k (List.mem_cons_of_mem _ mem)
    exact ⟨(name, v) :: fs, Json.fields_cons_iff.mpr ⟨w, u, key, value, all⟩⟩

/-- What is gathered of an envelope was spelled by such keys. -/
theorem spells_of_namedFields {got got' : Draft}
    (read : Json.namedFields layout levels n first got s = .ok (got', rest)) :
    ∃ keys, Spells levels n first got s keys rest := by
  induction n generalizing first got s with
  | zero => cases read
  | succ n ih =>
    rcases Json.namedFields_iff.mp read with ⟨next, rfl⟩ | ⟨name, more, u, takes, read⟩
    · exact ⟨[], .nil next⟩
    · obtain ⟨keys, later⟩ := ih read
      have ⟨_, tags, datas, _⟩ := later
      obtain ⟨w, key, ⟨rfl, new, t, value, rfl⟩ | ⟨rfl, new, v, value, rfl⟩ |
        ⟨tag, data, skip, rfl⟩⟩ := takes_iff.mp takes
      · refine ⟨_, later.cons key (Json.value_skips value).skipValue (fun _ => ⟨_, value⟩) ?_ ?_⟩
        · simpa [List.count_cons, new] using tags
        · simpa [List.count_cons] using datas
      · refine ⟨_, later.cons key (Json.value_skips value).skipValue (fun _ => ⟨_, value⟩) ?_ ?_⟩
        · simpa [List.count_cons] using tags
        · simpa [List.count_cons, new] using datas
      · refine ⟨_, later.cons key skip (fun known => absurd known (by simp [tag, data])) ?_ ?_⟩
        · simpa [List.count_cons, tag] using tags
        · simpa [List.count_cons, data] using datas

/-- A name that is there once, and first, is not there again. -/
theorem new_of_count {α : Type} {name : String} {v : Json} {fs : List (String × Json)}
    {there : Option α}
    (once : (((name, v) :: fs).map Prod.fst).count name + there.isSome.toNat ≤ 1) :
    there = none ∧ (fs.map Prod.fst).count name = 0 ∧ lookupNamed name fs = none := by
  rw [List.map_cons, List.count_cons, beq_self_eq_true, if_pos rfl] at once
  have gone : (fs.map Prod.fst).count name = 0 := by omega
  refine ⟨?_, gone, ?_⟩
  · cases there with
    | none => rfl
    | some x => simp at once
  · rw [lookupNamed_eq_none_iff, ← List.count_eq_zero, gone]

/-- From fields that are read as values, the tag and the data are gathered as what is under their
names, if the tag is a text. -/
theorem namedFields_iff_of_fields {got got' : Draft} {fs : List (String × Json)} {rest' : Bytes}
    (parsed : Json.fields (Json.value levels) n first s = .ok (fs, rest))
    (tags : (fs.map Prod.fst).count "type" + got.type.isSome.toNat ≤ 1)
    (datas : (fs.map Prod.fst).count "data" + got.data.isSome.toNat ≤ 1) :
    Json.namedFields layout levels n first got s = .ok (got', rest') ↔
      rest' = rest ∧ (∀ v, lookupNamed "type" fs = some v → v.str?.isSome) ∧
        got' = { type := got.type.or ((lookupNamed "type" fs).bind Json.str?)
                 data := got.data.or (lookupNamed "data" fs) } := by
  induction n generalizing first got s fs with
  | zero => cases parsed
  | succ n ih =>
    cases fs with
    | nil =>
      rw [Json.namedFields_iff_of_end (Json.fields_nil_iff.mp parsed)]
      simp only [lookupNamed_nil, reduceCtorEq, false_implies, implies_true, Option.bind_none,
        Option.or_none, true_and]
      exact and_comm
    | cons f fs =>
      obtain ⟨name, v⟩ := f
      obtain ⟨w, u, key, value, all⟩ := Json.fields_cons_iff.mp parsed
      rw [Json.namedFields_iff_of_key key]
      simp only [takes_iff]
      by_cases tag : name = "type"
      · subst tag
        obtain ⟨new, gone, later⟩ := new_of_count tags
        have same (t : String) := @ih false u { got with type := some t } fs all
          (by rw [gone]; exact Nat.le_refl 1) (by simpa [List.count_cons] using datas)
        constructor
        · rintro ⟨more, u', ⟨w', key', field⟩, read⟩
          obtain ⟨-, rfl⟩ := key.inj key'
          obtain ⟨-, -, t, value', rfl⟩ | ⟨eq, -⟩ | ⟨ne, -⟩ := field
          · cases value.symm.trans value'
            simpa [lookupNamed_cons, new, later, Json.str?] using (same t).mp read
          · exact absurd eq (by decide)
          · exact absurd rfl ne
        · rintro ⟨rfl, isText, rfl⟩
          obtain ⟨t, text⟩ := Option.isSome_iff_exists.mp (isText v (by simp [lookupNamed_cons]))
          obtain rfl := Json.str?_eq_some_iff.mp text
          refine ⟨_, u, ⟨w, key, .inl ⟨rfl, new, t, value, rfl⟩⟩, (same t).mpr ?_⟩
          simp [lookupNamed_cons, new, later, Json.str?]
      have tags : (fs.map Prod.fst).count "type" + got.type.isSome.toNat ≤ 1 := by
        simpa [List.count_cons, tag] using tags
      by_cases data : name = "data"
      · subst data
        obtain ⟨new, gone, later⟩ := new_of_count datas
        have same := @ih false u { got with data := some v } fs all tags
          (by rw [gone]; exact Nat.le_refl 1)
        constructor
        · rintro ⟨more, u', ⟨w', key', field⟩, read⟩
          obtain ⟨-, rfl⟩ := key.inj key'
          obtain ⟨eq, -⟩ | ⟨-, -, v', value', rfl⟩ | ⟨-, ne, -⟩ := field
          · exact absurd eq tag
          · cases value.symm.trans value'
            simpa [lookupNamed_cons, new, later] using same.mp read
          · exact absurd rfl ne
        · rintro ⟨rfl, isText, rfl⟩
          refine ⟨_, u, ⟨w, key, .inr (.inl ⟨rfl, new, v, value, rfl⟩)⟩,
            same.mpr ⟨rfl, ?_, ?_⟩⟩
          · simpa [lookupNamed_cons] using isText
          · simp [lookupNamed_cons, new, later]
      · have datas : (fs.map Prod.fst).count "data" + got.data.isSome.toNat ≤ 1 := by
          simpa [List.count_cons, data] using datas
        have skip := (Json.value_skips value).skipValue
        have same := ih all tags datas
        simp only [lookupNamed_cons, if_neg tag, if_neg data]
        rw [← same]
        constructor
        · rintro ⟨more, u', ⟨w', key', field⟩, read⟩
          obtain ⟨-, rfl⟩ := key.inj key'
          obtain ⟨eq, -⟩ | ⟨eq, -⟩ | ⟨-, -, unread, rfl⟩ := field
          · exact absurd eq tag
          · exact absurd eq data
          · cases skip.symm.trans unread
            exact read
        · intro read
          exact ⟨got, u, ⟨w, key, .inr (.inr ⟨tag, data, skip, rfl⟩)⟩, read⟩

/-! ## By position and by name -/

theorem finish_iff {d : Draft} {e : Envelope} :
    layout.finish d = .ok e ↔ d = { type := some e.type, data := some e.data } := by
  constructor
  · intro finish
    obtain ⟨_ | type, _ | data⟩ := d
    · cases finish
    · cases finish
    · cases finish
    · cases finish
      rfl
  · rintro rfl
    rfl

/-- An envelope is gathered by position from a text and a value. -/
theorem listedFields_iff {got : Draft} :
    Json.listedFields layout levels layout.fields 0 true layout.start s = .ok (got, rest) ↔
      ∃ a x b t v, Json.nextItem true s = .ok (true, a) ∧
        Json.value levels a = .ok (.str t, x) ∧ Json.nextItem false x = .ok (true, b) ∧
        Json.value levels b = .ok (v, rest) ∧ got = { type := some t, data := some v } := by
  have fields : layout.fields = [typeField, dataField] := rfl
  rw [fields]
  constructor
  · intro read
    obtain ⟨_, -, lack, -⟩ | ⟨a, put, _, first, one, read⟩ := Json.listedFields_cons_iff.mp read
    · cases lack
    obtain ⟨⟨t, x⟩, text, ⟨⟩⟩ := Json.map_eq_ok one
    obtain ⟨_, -, lack, -⟩ | ⟨b, put, _, second, two, read⟩ := Json.listedFields_cons_iff.mp read
    · cases lack
    obtain ⟨⟨v, y⟩, value, ⟨⟩⟩ := Json.map_eq_ok two
    cases read
    exact ⟨a, x, b, t, v, first, Json.textValue_iff.mp text, second, value, rfl⟩
  · rintro ⟨a, x, b, t, v, first, text, second, value, rfl⟩
    refine Json.listedFields_cons_iff.mpr (.inr ⟨a, _, x, first, typeField_read text, ?_⟩)
    exact Json.listedFields_cons_iff.mpr (.inr ⟨b, _, rest, second, dataField_read value, rfl⟩)

/-- By position, an envelope is read where an array of a text and a value is. -/
theorem reader_list {e : Envelope} {t : Bytes} (gap : Json.skipGap s = 0x5B :: t) :
    reader (levels + 1) s = .ok (e, rest) ↔
      Json.list (Json.value levels) t = .ok ([.str e.type, e.data], rest) := by
  rw [reader, Json.recordValue_iff, Json.list_iff]
  constructor
  · rintro (⟨u, got, y, gap', read, finish, close⟩ | ⟨u, got, y, gap', -⟩)
    · cases gap.symm.trans gap'
      obtain ⟨a, x, b, type, data, first, text, second, value, rfl⟩ := listedFields_iff.mp read
      cases finish_iff.mp finish
      have end' : Json.nextItem false y = .ok (false, 0x5D :: rest) :=
        Json.nextItem_end_iff.mpr ⟨rest, rfl, close⟩
      -- two values take a byte each, so three turns of the loop are there
      have long := (Json.skipRest_item first).1
      have long' := (Json.skipRest_item second).1
      have short := (Json.value_skips text).shorter
      have short' := (Json.value_skips value).shorter
      obtain ⟨n, room⟩ : ∃ n, t.length = n + 2 := ⟨t.length - 2, by omega⟩
      rw [room]
      refine ⟨0x5D :: rest, ?_, Json.endList_written rest⟩
      exact Json.items_cons_iff.mpr ⟨a, x, first, text, Json.items_cons_iff.mpr
        ⟨b, y, second, value, Json.items_nil_iff.mpr end'⟩⟩
    · cases gap.symm.trans gap'
  · rintro ⟨y, all, close⟩
    obtain ⟨a, x, first, text, all⟩ := Json.items_cons_iff.mp all
    obtain ⟨n, room⟩ : ∃ n, t.length = n + 1 := ⟨t.length - 1, by
      have := (Json.skipRest_item first).1
      have := (Json.value_skips text).shorter
      omega⟩
    rw [room] at all
    obtain ⟨b, z, second, value, all⟩ := Json.items_cons_iff.mp all
    cases n with
    | zero => cases all
    | succ n =>
      obtain ⟨r, rfl, end'⟩ := Json.nextItem_end_iff.mp (Json.items_nil_iff.mp all)
      cases (Json.endList_written r).symm.trans close
      exact .inl ⟨t, _, z, gap, listedFields_iff.mpr
        ⟨a, x, b, e.type, e.data, first, text, second, value, rfl⟩, finish_iff.mpr rfl, end'⟩

/-- By name, an envelope is read from an object whose fields are read as values. -/
theorem reader_object {e : Envelope} {t : Bytes} {fs : List (String × Json)} {rest' : Bytes}
    (gap : Json.skipGap s = 0x7B :: t)
    (parsed : Json.object (Json.value levels) t = .ok (fs, rest))
    (tags : (fs.map Prod.fst).count "type" ≤ 1) (datas : (fs.map Prod.fst).count "data" ≤ 1) :
    reader (levels + 1) s = .ok (e, rest') ↔ rest' = rest ∧
      lookupNamed "type" fs = some (.str e.type) ∧ lookupNamed "data" fs = some e.data := by
  obtain ⟨u, all, close⟩ := Json.object_iff.mp parsed
  have gathers {got : Draft} {u' : Bytes} :=
    @namedFields_iff_of_fields levels _ true t u layout.start got fs u' all tags datas
  rw [reader, Json.recordValue_iff]
  constructor
  · rintro (⟨_, _, _, gap', -⟩ | ⟨t', got, u', gap', read, finish, close'⟩)
    · cases gap.symm.trans gap'
    · cases gap.symm.trans gap'
      obtain ⟨rfl, isText, rfl⟩ := gathers.mp read
      cases close.symm.trans close'
      have parts := finish_iff.mp finish
      simp only [Draft.mk.injEq] at parts
      obtain ⟨v, there, text⟩ := Option.bind_eq_some_iff.mp parts.1
      exact ⟨rfl, by rw [there, Json.str?_eq_some_iff.mp text], parts.2⟩
  · rintro ⟨rfl, tag, data⟩
    refine .inr ⟨t, _, u, gap, gathers.mpr ⟨rfl, ?_, rfl⟩, finish_iff.mpr ?_, close⟩
    · intro v there
      cases there.symm.trans tag
      rfl
    · simp [layout, tag, data, Json.str?]

/-! ## Whole texts -/

theorem ofBytes_iff {b : Bytes} {e : Envelope} :
    ofBytes b = .ok e ↔ ∃ rest, reader nestingLimit b = .ok (e, rest) ∧
      Json.endText rest = .ok () := by
  rw [← Json.whole_iff, ofBytes]
  split
  next all => simp [all]
  next all => simp [all]

theorem malformed_of_ofBytes {b : Bytes} {e : QueueError} (read : ofBytes b = .error e) :
    ∃ reason, e = .envelopeMalformed reason := by
  unfold ofBytes at read
  split at read
  · cases read
  · cases read
    exact ⟨_, rfl⟩

/-- Keys of an object that is read as an envelope: tag and data are there once, and if there are
no other keys, the text is a value. -/
theorem keys_of_ofBytes {b t : Bytes} {e : Envelope} (gap : Json.skipGap b = 0x7B :: t)
    (read : ofBytes b = .ok e) :
    ∃ keys, keys? b = some keys ∧ keys.count "type" ≤ 1 ∧ keys.count "data" ≤ 1 ∧
      ((∀ name ∈ keys, name = "type" ∨ name = "data") → ∃ v, Json.parse b = .ok v) := by
  obtain ⟨rest, read, done⟩ := ofBytes_iff.mp read
  obtain ⟨_, _, _, gap', -⟩ | ⟨t', got, u, gap', read, finish, close⟩ :=
    Json.recordValue_iff.mp read
  · cases gap.symm.trans gap'
  · cases gap.symm.trans gap'
    obtain ⟨keys, spelled, tags, datas, parsed⟩ := spells_of_namedFields read
    have all := Json.object_iff.mpr ⟨u, spelled, close⟩
    refine ⟨keys, Json.keys?_eq_some_iff.mpr ⟨t, rest, gap, all, done⟩, tags, datas, ?_⟩
    intro known
    obtain ⟨fs, values⟩ := parsed known
    have object := Json.object_iff.mpr ⟨u, values, close⟩
    exact ⟨.obj (sortNamed fs), Json.whole_iff.mpr ⟨rest, Json.value_of_object gap object, done⟩⟩

/-- Taking an envelope out of the value that a text is comes to the same as reading it from the
text, unless the tag or the data is there twice. -/
theorem ofBytes_of_parse {b : Bytes} {v : Json} (parsed : Json.parse b = .ok v)
    (once : ∀ keys, keys? b = some keys → keys.count "type" ≤ 1 ∧ keys.count "data" ≤ 1)
    {type : String} {data : Json} :
    ofBytes b = .ok ⟨type, data⟩ ↔
      (v.field? "type" = some (.str type) ∧ v.field? "data" = some data) ∨
        v = .arr [.str type, data] := by
  obtain ⟨rest, value, done⟩ := Json.whole_iff.mp parsed
  rw [ofBytes_iff]
  rcases Json.value_cases value with ⟨t, vs, gap, rfl, all⟩ | ⟨t, fs, gap, rfl, all⟩ |
    ⟨c, t, gap, noList, noObject, flat⟩
  · constructor
    · rintro ⟨rest', read, -⟩
      cases all.symm.trans ((reader_list gap).mp read)
      exact .inr rfl
    · rintro (⟨tag, -⟩ | eq)
      · cases tag
      · cases eq
        exact ⟨rest, (reader_list gap).mpr all, done⟩
  · obtain ⟨tags, datas⟩ := once _ (Json.keys?_of_object gap all done)
    simp only [Json.field?_obj, lookup_sortNamed, lookupNamed_reverse tags,
      lookupNamed_reverse datas]
    constructor
    · rintro ⟨rest', read, -⟩
      exact .inl ((reader_object gap all tags datas).mp read).2
    · rintro (parts | eq)
      · exact ⟨rest, (reader_object gap all tags datas).mpr ⟨rfl, parts⟩, done⟩
      · cases eq
  · constructor
    · rintro ⟨rest', read, -⟩
      obtain ⟨_, _, _, gap', -⟩ | ⟨_, _, _, gap', -⟩ := Json.recordValue_iff.mp read
      · cases gap.symm.trans gap'
        exact absurd rfl noList
      · cases gap.symm.trans gap'
        exact absurd rfl noObject
    · rintro (⟨tag, -⟩ | rfl)
      · cases v with
        | obj fields => simp [Json.depth] at flat
        | _ => cases tag
      · simp [Json.depth] at flat

/-- Where a text is no value, an envelope is read from it only by name. -/
theorem object_of_ofBytes {b : Bytes} {f : Fault} {e : Envelope}
    (unparsed : Json.parse b = .error f) (read : ofBytes b = .ok e) :
    ∃ t, Json.skipGap b = 0x7B :: t := by
  obtain ⟨rest, read, done⟩ := ofBytes_iff.mp read
  obtain ⟨t, _, _, gap, -⟩ | ⟨t, _, _, gap, -⟩ := Json.recordValue_iff.mp read
  · have all := Json.value_of_list gap ((reader_list gap).mp read)
    have parsed : Json.parse b = .ok _ := Json.whole_iff.mpr ⟨rest, all, done⟩
    cases unparsed.symm.trans parsed
  · exact ⟨t, gap⟩

end Envelope

namespace Codec

open Json (keys?)

/-- Reading an envelope from a text agrees with reading a value from it and taking the
envelope out of that value. -/
theorem json_decode_agrees (b : Bytes) :
    (∀ fields, Json.parse b = .ok (.obj fields) →
      ∃ keys, keys? b = some keys ∧ ∀ name, name ∈ keys ↔ name ∈ fields.map Prod.fst) ∧
    (∀ v, Json.parse b = .ok v →
      (∀ keys, keys? b = some keys → keys.count "type" ≤ 1 ∧ keys.count "data" ≤ 1) →
      ∀ type data, json.decode b = .ok ⟨type, data⟩ ↔
        (v.field? "type" = some (.str type) ∧ v.field? "data" = some data) ∨
          v = .arr [.str type, data]) ∧
    (∀ keys, keys? b = some keys → 1 < keys.count "type" ∨ 1 < keys.count "data" →
      ∃ reason, json.decode b = .error (.envelopeMalformed reason)) ∧
    ∀ f e, Json.parse b = .error f → json.decode b = .ok e →
      ∃ keys, keys? b = some keys ∧ ∃ name ∈ keys, name ≠ "type" ∧ name ≠ "data" := by
  refine ⟨fun fields => Json.keys?_of_parse, ?_, ?_, ?_⟩
  · intro v parsed once type data
    exact Envelope.ofBytes_of_parse parsed once
  · intro keys spelled twice
    cases read : json.decode b with
    | error e =>
      obtain ⟨reason, rfl⟩ := Envelope.malformed_of_ofBytes read
      exact ⟨reason, rfl⟩
    | ok e =>
      obtain ⟨t, rest, gap, -⟩ := Json.keys?_eq_some_iff.mp spelled
      obtain ⟨keys', spelled', tags, datas, -⟩ := Envelope.keys_of_ofBytes gap read
      cases spelled.symm.trans spelled'
      omega
  · intro f e unparsed read
    obtain ⟨t, gap⟩ := Envelope.object_of_ofBytes unparsed read
    obtain ⟨keys, spelled, -, -, parsed⟩ := Envelope.keys_of_ofBytes gap read
    refine ⟨keys, spelled, ?_⟩
    by_contra! none
    obtain ⟨v, all⟩ := parsed fun name mem => by
      by_cases tag : name = "type"
      · exact .inl tag
      · exact .inr (none name mem tag)
    cases unparsed.symm.trans all

/-- Keys in any order, spelled with escapes, with another one between them; the tag there twice;
and half a pair of surrogates where it is skipped. -/
theorem json_decode_agrees_of_example :
    json.decode (Bytes.ofText
          "\x7b \"d\\u0061ta\" : [null] , \"x\" : \x7b\x7d, \"type\":\"t\"\x7d") =
        .ok ⟨"t", .arr [.null]⟩ ∧
      (∃ reason, json.decode
          (Bytes.ofText "\x7b\"type\":\"t\",\"data\":1,\"t\\u0079pe\":\"u\"\x7d") =
        .error (.envelopeMalformed reason)) ∧
      ∃ keys,
        keys? (Bytes.ofText "\x7b\"type\":\"t\",\"data\":1,\"x\":\"\\ud800\"\x7d") = some keys ∧
        ∃ name ∈ keys, name ≠ "type" ∧ name ≠ "data" := by
  have parsed : Json.parse (Bytes.ofText
      "\x7b \"d\\u0061ta\" : [null] , \"x\" : \x7b\x7d, \"type\":\"t\"\x7d") =
      .ok (.obj [("data", .arr [.null]), ("type", .str "t"), ("x", .obj [])]) := by rfl
  have spelled : keys? (Bytes.ofText
      "\x7b \"d\\u0061ta\" : [null] , \"x\" : \x7b\x7d, \"type\":\"t\"\x7d") =
      some ["data", "x", "type"] := by rfl
  have twice : keys? (Bytes.ofText "\x7b\"type\":\"t\",\"data\":1,\"t\\u0079pe\":\"u\"\x7d") =
      some ["type", "data", "type"] := by rfl
  have unparsed : Json.parse (Bytes.ofText
      "\x7b\"type\":\"t\",\"data\":1,\"x\":\"\\ud800\"\x7d") =
      .error (.here .unfinishedEscape (Bytes.ofText "\x7d")) := by rfl
  have read : json.decode (Bytes.ofText "\x7b\"type\":\"t\",\"data\":1,\"x\":\"\\ud800\"\x7d") =
      .ok ⟨"t", .int 1⟩ := by rfl
  refine ⟨((json_decode_agrees _).2.1 _ parsed ?_ "t" (.arr [.null])).mpr (.inl ⟨rfl, rfl⟩),
    (json_decode_agrees _).2.2.1 _ twice (by decide),
    (json_decode_agrees _).2.2.2 _ _ unparsed read⟩
  intro keys eq
  cases spelled.symm.trans eq
  decide

end Codec

end JobQueue
