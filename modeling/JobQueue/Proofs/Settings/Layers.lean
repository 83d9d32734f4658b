import Mathlib.Logic.Function.Basic
import JobQueue.Proofs.Codec.Stored
import JobQueue.Proofs.Json.Parts

/-!
# Settings laid over the defaults

Settings come from the text of an object or from an environment.  In either form
each of them (`Setting`) stands for itself: it is the value that is given for it,
if there is one, and its default otherwise, whatever is given for the others
(`Settings.layered`).

An object may hold some of the settings, in any order, among values under other
names.  A variable that does not spell a value of its setting (`Setting.Spells`)
counts as unset.
-/

namespace JobQueue

open Json (Restores AddsAll)

/-! ## The settings one by one -/

/-- One of the settings. -/
inductive Setting where
  /-- The number of slots. -/
  | concurrency
  /-- The queues. -/
  | queues
  /-- Whether heavier queues always come first. -/
  | strictPriority
  /-- How long a stop waits. -/
  | shutdownTimeout
  /-- How long a slot waits. -/
  | pollInterval
  /-- The delay before the second attempt. -/
  | retryBackoff
  /-- How long an attempt may take. -/
  | defaultTimeout
deriving DecidableEq, Repr

namespace Setting

/-- All settings, in the order in which they are written. -/
def all : List Setting :=
  [concurrency, queues, strictPriority, shutdownTimeout, pollInterval, retryBackoff,
    defaultTimeout]

/-- The values of a setting. -/
abbrev Value : Setting → Type
  | concurrency => UInt64
  | queues => Weights
  | strictPriority => Bool
  | shutdownTimeout => Span
  | pollInterval => Span
  | retryBackoff => Span
  | defaultTimeout => Option Span

/-- The name of a setting in an object. -/
def name : Setting → String
  | concurrency => "concurrency"
  | queues => "queues"
  | strictPriority => "strict_priority"
  | shutdownTimeout => "shutdown_timeout"
  | pollInterval => "poll_interval"
  | retryBackoff => "retry_backoff"
  | defaultTimeout => "default_timeout"

/-- The variable of a setting in an environment. -/
def variableName : Setting → String
  | concurrency => "QUEUE_CONCURRENCY"
  | queues => "QUEUE_QUEUES"
  | strictPriority => "QUEUE_STRICT_PRIORITY"
  | shutdownTimeout => "QUEUE_SHUTDOWN_TIMEOUT_SECS"
  | pollInterval => "QUEUE_POLL_INTERVAL_MS"
  | retryBackoff => "QUEUE_RETRY_BACKOFF_MS"
  | defaultTimeout => "QUEUE_DEFAULT_TIMEOUT_SECS"

/-- A value of a setting as it is written. -/
def json : (x : Setting) → x.Value → Json
  | concurrency, n => .int n.toNat
  | queues, w => w.json
  | strictPriority, b => .bool b
  | shutdownTimeout, d => d.json
  | pollInterval, d => d.json
  | retryBackoff, d => d.json
  | defaultTimeout, d => .ofOption Span.json d

/-- Read a value of a setting. -/
def scan : (x : Setting) → Nat → Reader x.Value
  | concurrency => fun _ => Json.longValue "usize"
  | queues => Weights.reader
  | strictPriority => fun _ => Json.boolValue
  | shutdownTimeout => Span.reader
  | pollInterval => Span.reader
  | retryBackoff => Span.reader
  | defaultTimeout => fun levels => Json.optionValue (Span.reader levels)

theorem name_injective : Function.Injective name := by
  intro x y h
  cases x <;> cases y <;> first | rfl | exact absurd h (by decide)

theorem variableName_injective : Function.Injective variableName := by
  intro x y h
  cases x <;> cases y <;> first | rfl | exact absurd h (by decide)

theorem restores (x : Setting) (v : x.Value) (levels : Nat) :
    Restores (x.scan (levels + 1)) (x.json v) v := by
  cases x with
  | concurrency => exact .long v "usize"
  | queues => exact v.restores levels
  | strictPriority => exact .bool v
  | shutdownTimeout => exact v.restores levels
  | pollInterval => exact v.restores levels
  | retryBackoff => exact v.restores levels
  | defaultTimeout => exact Span.restores_option v levels

end Setting

namespace Settings

/-- One of the settings. -/
def get (s : Settings) : (x : Setting) → x.Value
  | .concurrency => s.concurrency
  | .queues => s.queues
  | .strictPriority => s.strictPriority
  | .shutdownTimeout => s.shutdownTimeout
  | .pollInterval => s.pollInterval
  | .retryBackoff => s.retryBackoff
  | .defaultTimeout => s.defaultTimeout

theorem json_eq (s : Settings) :
    s.json = .obj (Setting.all.map fun x => (x.name, x.json (s.get x))) := rfl

/-- The text of settings is that of an object of which each setting is a part. -/
theorem bytes_json_eq (s : Settings) : s.json.bytes =
    Json.objectText (Setting.all.map fun x => (x.name, (x.json (s.get x)).bytes)) := by
  rw [json_eq, Json.bytes_obj_eq, List.map_map]
  rfl

/-! ## Objects -/

namespace Draft

/-- What is gathered of a setting. -/
def value? (d : Draft) : (x : Setting) → Option x.Value
  | .concurrency => d.concurrency
  | .queues => d.queues
  | .strictPriority => d.strictPriority
  | .shutdownTimeout => d.shutdownTimeout
  | .pollInterval => d.pollInterval
  | .retryBackoff => d.retryBackoff
  | .defaultTimeout => d.defaultTimeout

/-- Put a value of a setting to what is gathered. -/
def put (d : Draft) : (x : Setting) → x.Value → Draft
  | .concurrency, v => { d with concurrency := some v }
  | .queues, v => { d with queues := some v }
  | .strictPriority, v => { d with strictPriority := some v }
  | .shutdownTimeout, v => { d with shutdownTimeout := some v }
  | .pollInterval, v => { d with pollInterval := some v }
  | .retryBackoff, v => { d with retryBackoff := some v }
  | .defaultTimeout, v => { d with defaultTimeout := some v }

theorem value?_put_self (d : Draft) (x : Setting) (v : x.Value) :
    (d.put x v).value? x = some v := by
  cases x <;> rfl

theorem value?_put_of_ne (d : Draft) {x y : Setting} (v : x.Value) (h : y ≠ x) :
    (d.put x v).value? y = d.value? y := by
  cases x <;> cases y <;> first | rfl | exact absurd rfl h

theorem value?_start (x : Setting) : layout.start.value? x = none := by
  cases x <;> rfl

/-- What is gathered is laid over the defaults. -/
theorem get_finish (d : Draft) (x : Setting) :
    d.finish.get x = (d.value? x).getD (default.get x) := by
  cases x <;> rfl

end Draft

/-- The field of a setting. -/
def field (x : Setting) : Json.Field Draft (Nat → Reader (Draft → Draft)) :=
  .scanned x.name (fun d => (d.value? x).isSome) x.scan (fun v d => d.put x v) true

theorem layout_fields : layout.fields = Setting.all.map field := rfl

theorem field?_name (x : Setting) : layout.field? x.name = some (field x) := by
  cases x <;> rfl

theorem field?_other {name : String} (other : ∀ x : Setting, x.name ≠ name) :
    layout.field? name = none := by
  rw [Json.Layout.field?, layout_fields, List.find?_eq_none]
  intro f mem
  obtain ⟨x, -, rfl⟩ := List.mem_map.mp mem
  exact fun same => other x (of_decide_eq_true same)

/-- A setting that is written is put to what is gathered. -/
theorem adds_setting {got : Draft} {x : Setting} (new : got.value? x = none) (v : x.Value)
    (levels : Nat) :
    Json.Adds layout (levels + 1) got (x.name, (x.json v).bytes) (got.put x v) := by
  have notThere : (got.value? x).isSome = false := by
    rw [new]
    rfl
  exact .scanned (field?_name x) notThere (x.restores v levels)

/-- Whether a part of an object is one of the settings, as it is written of `s`, or a value
under a name that no setting has. -/
inductive IsPart (s : Settings) : String × Bytes → Prop where
  | setting (x : Setting) : IsPart s (x.name, (x.json (s.get x)).bytes)
  | other {name : String} {text : Bytes} (other : ∀ x : Setting, x.name ≠ name)
    (isValue : Json.IsValue text) : IsPart s (name, text)

/-- Each setting among the parts is gathered, and no other one. -/
theorem exists_addsAll {s : Settings} {parts : List (String × Bytes)}
    (each : ∀ p ∈ parts, IsPart s p)
    (once : ∀ x : Setting, (parts.map Prod.fst).count x.name ≤ 1) {levels : Nat} {got : Draft}
    (new : ∀ x : Setting, x.name ∈ parts.map Prod.fst → got.value? x = none) :
    ∃ got', AddsAll layout (levels + 1) got parts got' ∧
      ∀ x : Setting, got'.value? x =
        if x.name ∈ parts.map Prod.fst then some (s.get x) else got.value? x := by
  induction parts generalizing got with
  | nil => exact ⟨got, .done got, fun x => by simp⟩
  | cons p rest ih =>
    obtain ⟨here, others⟩ := List.forall_mem_cons.mp each
    have onceRest (x : Setting) : (rest.map Prod.fst).count x.name ≤ 1 :=
      Nat.le_trans (List.count_le_count_cons ..) (once x)
    cases here with
    | setting x =>
      have gone : x.name ∉ rest.map Prod.fst := by
        have atMost := once x
        rw [List.map_cons, List.count_cons_self] at atMost
        exact List.count_eq_zero.mp (by omega)
      have differs {y : Setting} (mem : y.name ∈ rest.map Prod.fst) : y ≠ x :=
        fun same => gone (same ▸ mem)
      obtain ⟨got', adds, gathered⟩ := @ih others onceRest (got.put x (s.get x)) fun y mem => by
        rw [Draft.value?_put_of_ne _ _ (differs mem)]
        exact new y (List.mem_cons_of_mem _ mem)
      have fresh : got.value? x = none := new x List.mem_cons_self
      refine ⟨got', .part (adds_setting fresh _ levels) adds, fun y => ?_⟩
      rw [gathered]
      by_cases same : y = x
      · subst same
        rw [if_neg gone, Draft.value?_put_self, List.map_cons, if_pos List.mem_cons_self]
      · have otherName : y.name ≠ x.name := fun eq => same (Setting.name_injective eq)
        rw [Draft.value?_put_of_ne _ _ same]
        simp only [List.map_cons, List.mem_cons, otherName, false_or]
    | other other isValue =>
      obtain ⟨got', adds, gathered⟩ := @ih others onceRest got fun y mem =>
        new y (List.mem_cons_of_mem _ mem)
      refine ⟨got', .part (.unknown (field?_other other) rfl isValue) adds, fun y => ?_⟩
      rw [gathered]
      simp only [List.map_cons, List.mem_cons, other y, false_or]

/-- Reading some of the settings lays them over the defaults. -/
theorem whole_parts {s : Settings} {parts : List (String × Bytes)}
    (each : ∀ p ∈ parts, IsPart s p)
    (once : ∀ x : Setting, (parts.map Prod.fst).count x.name ≤ 1) :
    ∃ t, Json.whole (reader Json.nestingLimit) (Json.objectText parts) = .ok t ∧
      ∀ x : Setting, t.get x =
        if x.name ∈ parts.map Prod.fst then s.get x else default.get x := by
  obtain ⟨got, adds, gathered⟩ := @exists_addsAll s parts each once 125 layout.start
    fun x _ => Draft.value?_start x
  have read := Json.recordValue_objectText adds rfl []
  rw [List.append_nil] at read
  refine ⟨got.finish, Json.whole_iff.mpr ⟨[], read, rfl⟩, fun x => ?_⟩
  rw [Draft.get_finish, gathered, Draft.value?_start]
  split <;> rfl

/-! ## Environments -/

end Settings

/-- Whether the text of a variable spells a value of a setting. -/
def Setting.Spells : (x : Setting) → String → x.Value → Prop
  | concurrency, text, n => IsNumeral (trim text.toList) n.toNat
  | queues, text, w => Weights.ofText text.toList = .ok w
  | strictPriority, text, b => trim text.toList = (if b then "true" else "false").toList
  | shutdownTimeout, text, d =>
    ∃ n : UInt64, IsNumeral (trim text.toList) n.toNat ∧ d = .ofSeconds n
  | pollInterval, text, d =>
    ∃ n : UInt64, IsNumeral (trim text.toList) n.toNat ∧ d = .ofMillis n
  | retryBackoff, text, d =>
    ∃ n : UInt64, IsNumeral (trim text.toList) n.toNat ∧ d = .ofMillis n
  | defaultTimeout, text, d =>
    ∃ n : UInt64, IsNumeral (trim text.toList) n.toNat ∧ d = some (.ofSeconds n)

namespace Settings

variable {env : Environment}

theorem numberOf_eq_some_iff {name : String} {n : UInt64} :
    numberOf env name = some n ↔
      ∃ text, env name = some text ∧ IsNumeral (trim text.toList) n.toNat := by
  rw [numberOf, Option.bind_eq_some_iff]
  refine exists_congr fun text => and_congr_right fun _ => ?_
  constructor
  · intro said
    split at said
    · next m read =>
      obtain ⟨numeral, small⟩ := readUnsigned_eq_ok_iff.mp read
      rw [Option.some.injEq] at said
      rwa [← said, UInt64.toNat_ofNat_of_lt' (Nat.lt_succ_of_le small)]
    · cases said
  · intro numeral
    rw [readUnsigned_eq_ok_iff.mpr ⟨numeral, Nat.le_of_lt_succ n.toNat_lt⟩]
    simp

theorem map_numberOf_eq_some_iff {α : Type} {name : String} {f : UInt64 → α} {v : α} :
    (numberOf env name).map f = some v ↔
      ∃ text, env name = some text ∧
        ∃ n : UInt64, IsNumeral (trim text.toList) n.toNat ∧ v = f n := by
  rw [Option.map_eq_some_iff]
  constructor
  · rintro ⟨n, number, rfl⟩
    obtain ⟨text, set, numeral⟩ := numberOf_eq_some_iff.mp number
    exact ⟨text, set, n, numeral, rfl⟩
  · rintro ⟨text, set, n, numeral, rfl⟩
    exact ⟨n, numberOf_eq_some_iff.mpr ⟨text, set, numeral⟩, rfl⟩

theorem flagOf_eq_some_iff {name : String} {b : Bool} :
    flagOf env name = some b ↔
      ∃ text, env name = some text ∧
        trim text.toList = (if b then "true" else "false").toList := by
  rw [flagOf, Option.bind_eq_some_iff]
  refine exists_congr fun text => and_congr_right fun _ => ?_
  have same (word : String) :
      trim text.toList = word.toList ↔ String.ofList (trim text.toList) = word := by
    rw [← String.toList_inj, String.toList_ofList]
  rw [same]
  split <;> cases b <;> simp_all

theorem weightsOf_eq_some_iff {name : String} {w : Weights} :
    weightsOf env name = some w ↔
      ∃ text, env name = some text ∧ Weights.ofText text.toList = .ok w := by
  rw [weightsOf, Option.bind_eq_some_iff]
  refine exists_congr fun text => and_congr_right fun _ => ?_
  cases Weights.ofText text.toList <;> simp [Except.toOption]

/-- The value of a setting that its variable spells. -/
def ofVariable? (env : Environment) : (x : Setting) → Option x.Value
  | .concurrency => numberOf env Setting.concurrency.variableName
  | .queues => weightsOf env Setting.queues.variableName
  | .strictPriority => flagOf env Setting.strictPriority.variableName
  | .shutdownTimeout => (numberOf env Setting.shutdownTimeout.variableName).map .ofSeconds
  | .pollInterval => (numberOf env Setting.pollInterval.variableName).map .ofMillis
  | .retryBackoff => (numberOf env Setting.retryBackoff.variableName).map .ofMillis
  | .defaultTimeout =>
    (numberOf env Setting.defaultTimeout.variableName).map fun n => some (.ofSeconds n)

theorem ofVariable?_eq_some_iff {x : Setting} {v : x.Value} :
    ofVariable? env x = some v ↔ ∃ text, env x.variableName = some text ∧ x.Spells text v := by
  cases x with
  | concurrency => exact numberOf_eq_some_iff
  | queues => exact weightsOf_eq_some_iff
  | strictPriority => exact flagOf_eq_some_iff
  | shutdownTimeout => exact map_numberOf_eq_some_iff
  | pollInterval => exact map_numberOf_eq_some_iff
  | retryBackoff => exact map_numberOf_eq_some_iff
  | defaultTimeout => exact map_numberOf_eq_some_iff

/-- What the variables spell is laid over the defaults. -/
theorem get_ofEnvironment (env : Environment) (x : Setting) :
    (ofEnvironment env).get x = (ofVariable? env x).getD (default.get x) := by
  cases x with
  | defaultTimeout =>
    -- the default of this setting is that there is none
    simp only [get, ofEnvironment, ofVariable?, Setting.variableName]
    cases numberOf env "QUEUE_DEFAULT_TIMEOUT_SECS" <;> rfl
  | _ => rfl

theorem ofVariable?_congr {env env' : Environment} {x : Setting}
    (same : env' x.variableName = env x.variableName) : ofVariable? env' x = ofVariable? env x := by
  refine Option.ext fun v => ?_
  rw [ofVariable?_eq_some_iff, ofVariable?_eq_some_iff, same]

/-- A setting is what its variable spells, whatever the other variables hold. -/
theorem get_ofEnvironment_of_spells {env : Environment} {x : Setting} {text : String} {v : x.Value}
    (set : env x.variableName = some text) (spells : x.Spells text v) :
    (ofEnvironment env).get x = v := by
  rw [get_ofEnvironment, ofVariable?_eq_some_iff.mpr ⟨text, set, spells⟩, Option.getD_some]

/-- A setting of which its variable spells no value is the default. -/
theorem get_ofEnvironment_of_silent {env : Environment} {x : Setting}
    (silent : ∀ text v, env x.variableName = some text → ¬ x.Spells text v) :
    (ofEnvironment env).get x = default.get x := by
  have none : ofVariable? env x = none := by
    refine Option.eq_none_iff_forall_ne_some.mpr fun v said => ?_
    obtain ⟨text, set, spells⟩ := ofVariable?_eq_some_iff.mp said
    exact silent text v set spells
  rw [get_ofEnvironment, none, Option.getD_none]

/-! ## Layers -/

/-- Settings are laid over the defaults one by one: those that the text of an object holds, and
those of which the variable spells a value. -/
theorem layered :
    (∀ s : Settings, s.json.bytes =
      Json.objectText (Setting.all.map fun x => (x.name, (x.json (s.get x)).bytes))) ∧
    (∀ (s : Settings) (parts : List (String × Bytes)), (∀ p ∈ parts, IsPart s p) →
      (∀ x : Setting, (parts.map Prod.fst).count x.name ≤ 1) →
      ∃ t, Json.whole (reader Json.nestingLimit) (Json.objectText parts) = .ok t ∧
        ∀ x : Setting, t.get x =
          if x.name ∈ parts.map Prod.fst then s.get x else default.get x) ∧
    ∀ (env : Environment) (x : Setting),
      (∀ text v, env x.variableName = some text → x.Spells text v →
        (ofEnvironment env).get x = v) ∧
      ((∀ text v, env x.variableName = some text → ¬ x.Spells text v) →
        (ofEnvironment env).get x = default.get x) ∧
      (∀ env' : Environment, env' x.variableName = env x.variableName →
        (ofEnvironment env').get x = (ofEnvironment env).get x) ∧
      ∀ y ≠ x, ∀ text,
        (ofEnvironment (Function.update env y.variableName text)).get x =
          (ofEnvironment env).get x := by
  have congr {env env' : Environment} {x : Setting}
      (same : env' x.variableName = env x.variableName) :
      (ofEnvironment env').get x = (ofEnvironment env).get x := by
    rw [get_ofEnvironment, get_ofEnvironment, ofVariable?_congr same]
  refine ⟨bytes_json_eq, fun s parts => whole_parts, fun env x =>
    ⟨fun _ _ => get_ofEnvironment_of_spells, get_ofEnvironment_of_silent, fun _ => congr,
      fun y other text => congr ?_⟩⟩
  exact Function.update_of_ne (Setting.variableName_injective.ne other.symm) text env

/-- Two settings and a value under another name in an object; and a variable that spells a value
next to one that does not. -/
theorem layered_of_example :
    (∃ t, Json.whole (reader Json.nestingLimit) (Bytes.ofText
        "\x7b\"poll_interval\":\x7b\"secs\":2,\"nanos\":0\x7d,\"x\": [1] ,\"concurrency\":4\x7d") =
          .ok t ∧
      t.concurrency = 4 ∧ t.pollInterval = .ofSeconds 2 ∧ t.queues = default.queues) ∧
    (ofEnvironment
        (Function.update (fun _ => some " +4 ") "QUEUE_QUEUES" (some "low"))).concurrency = 4 ∧
    (ofEnvironment
        (Function.update (fun _ => some " +4 ") "QUEUE_QUEUES" (some "low"))).queues =
      default.queues := by
  have value : Json.IsValue (Bytes.ofText " [1] ") := ⟨1, .arr [.int 1], by rfl⟩
  have other : ∀ x : Setting, x.name ≠ "x" := by
    intro x
    cases x <;> decide
  have parts (s : Settings) : ∀ p ∈ [
      (Setting.pollInterval.name, (Setting.pollInterval.json s.pollInterval).bytes),
      ("x", Bytes.ofText " [1] "),
      (Setting.concurrency.name, (Setting.concurrency.json s.concurrency).bytes)], IsPart s p := by
    simp only [List.forall_mem_cons]
    exact ⟨.setting .pollInterval, .other other value, .setting .concurrency, by simp⟩
  refine ⟨?_, ?_, ?_⟩
  · obtain ⟨t, read, each⟩ := layered.2.1
      { default with concurrency := 4, pollInterval := .ofSeconds 2 } _ (parts _)
      (by intro x; cases x <;> decide)
    exact ⟨t, read, each .concurrency, each .pollInterval, each .queues⟩
  · refine (layered.2.2 _ .concurrency).1 " +4 " 4 (by decide) ?_
    exact ⟨['4'], by decide, List.forall_mem_singleton.mpr rfl, .inr (by decide), by decide⟩
  · refine (layered.2.2 _ .queues).2.1 fun text w set spells => ?_
    cases set
    cases spells

end Settings

end JobQueue
