import JobQueue.Event.Text
import JobQueue.Proofs.Codec.Payload
import JobQueue.Proofs.Json.Typed
import JobQueue.Settings.Address
import JobQueue.Settings.Text

/-!
# What is stored comes back

Messages, statuses, records, events, settings and addresses are read from their texts as they
were (`stored_round_trip`): whatever strings, bytes, counters, spans and instants they hold.

Each of them follows its layout, field by field in the order in which they are written; a
variant comes from under its name.
-/

namespace JobQueue

open Json (Restores)
open Json.Restores (text bool byte word long instant option list mapOf record unit variant)

/-! ## Parts -/

namespace Span

theorem restores (d : Span) (levels : Nat) : Restores (reader (levels + 1)) d.json d := by
  have secs := long (UInt64.ofNat d.seconds) "u64"
  have nanos := word (UInt32.ofNat d.subsecond)
  have parts : ofParts? (UInt64.ofNat d.seconds).toNat (UInt32.ofNat d.subsecond).toNat =
      some d := by
    rw [UInt64.toNat_ofNat_of_lt' d.seconds_lt, UInt32.toNat_ofNat_of_lt' d.subsecond_lt,
      ofParts?_parts]
  have finish := finish_of_parts parts
  rw [UInt64.toNat_ofNat_of_lt' d.seconds_lt] at secs
  rw [UInt32.toNat_ofNat_of_lt' d.subsecond_lt] at nanos
  generalize UInt64.ofNat d.seconds = s at secs finish
  generalize UInt32.ofNat d.subsecond = n at nanos finish
  exact record (.field rfl rfl secs <| .field rfl rfl nanos <| .done _) finish

theorem restores_option (o : Option Span) (levels : Nat) :
    Restores (Json.optionValue (reader (levels + 1))) (.ofOption json o) o :=
  option (restores · levels) fun _ head => by cases head

end Span

theorem Json.Restores.textOption (o : Option String) :
    Restores (Json.optionValue Json.textValue) (.ofOption .str o) o :=
  option text fun _ head => by cases head

theorem JobId.restores (id : JobId) : Restores reader id.json id :=
  (Json.Restores.text id.text).map JobId.mk

theorem LeaseToken.restores (t : LeaseToken) : Restores reader t.json t :=
  (Json.Restores.text t.text).map LeaseToken.mk

theorem LeaseToken.restores_option (o : Option LeaseToken) :
    Restores (Json.optionValue reader) (.ofOption json o) o :=
  option restores fun _ head => by cases head

/-! ## Messages and records -/

theorem Message.restores (m : Message) (levels : Nat) :
    Restores (reader (levels + 2)) m.json m :=
  record
    (.field rfl rfl (text m.type) <| .field rfl rfl (text m.queue) <|
      .field rfl rfl (list fun b _ => byte b) <| .field rfl rfl (word m.maxRetries) <|
      .field rfl rfl (instant m.processAt) <|
      .field rfl rfl (Span.restores_option m.timeout levels) <| .done _)
    rfl

namespace Status

theorem restores_instant {title field : String} {make : Instant → Status} (t : Instant)
    (levels : Nat) :
    Restores (Json.recordValue (instantLayout title field make) (levels + 1))
      (.obj [(field, t.json)]) (make t) := by
  have known : (instantLayout title field make).field? field = some _ :=
    List.find?_cons_of_pos (by simp [Json.Field.scanned])
  exact record (.field known rfl (instant t) <| .done _) rfl

theorem restores (s : Status) (levels : Nat) : Restores (reader (levels + 2)) s.json s := by
  cases s with
  | scheduled => exact unit rfl _
  | pending => exact unit rfl _
  | active => exact unit rfl _
  | retrying t => exact variant rfl (restores_instant t levels)
  | completed t => exact variant rfl (restores_instant t levels)
  | archived t error =>
    exact variant rfl <| record
      (.field rfl rfl (instant t) <| .field rfl rfl (text error) <| .done _) rfl

end Status

theorem Record.restores (r : Record) (levels : Nat) : Restores (reader (levels + 3)) r.json r :=
  record
    (.field rfl rfl r.id.restores <| .field rfl rfl (r.message.restores levels) <|
      .field rfl rfl (r.status.restores levels) <| .field rfl rfl (word r.attempt) <|
      .field rfl rfl (instant r.createdAt) <| .field rfl rfl (instant r.updatedAt) <|
      .field rfl rfl (.textOption r.lastError) <|
      .field rfl rfl (LeaseToken.restores_option r.lease) <| .done _)
    rfl

/-! ## Events -/

theorem Event.restores (e : Event) (levels : Nat) : Restores (reader (levels + 2)) e.json e := by
  cases e with
  | enqueued job queue type time =>
    exact variant rfl <| record
      (.field rfl rfl job.restores <| .field rfl rfl (text queue) <|
        .field rfl rfl (text type) <| .field rfl rfl (instant time) <| .done _) rfl
  | leased job attempt time =>
    exact variant rfl <| record
      (.field rfl rfl job.restores <| .field rfl rfl (word attempt) <|
        .field rfl rfl (instant time) <| .done _) rfl
  | retrying job retryAt error time =>
    exact variant rfl <| record
      (.field rfl rfl job.restores <| .field rfl rfl (instant retryAt) <|
        .field rfl rfl (text error) <| .field rfl rfl (instant time) <| .done _) rfl
  | completed job time =>
    exact variant rfl <| record
      (.field rfl rfl job.restores <| .field rfl rfl (instant time) <| .done _) rfl
  | archived job error time =>
    exact variant rfl <| record
      (.field rfl rfl job.restores <| .field rfl rfl (text error) <|
        .field rfl rfl (instant time) <| .done _) rfl

/-! ## Settings and addresses -/

/-- Weights come back because their names ascend. -/
theorem Weights.restores (w : Weights) (levels : Nat) :
    Restores (reader (levels + 1)) w.json w := by
  have entries : Restores (Json.mapValue (fun _ => Json.wordValue) (levels + 1))
      (.obj (Json.mapped (fun n : UInt32 => .int n.toNat) w.entries)) w.entries :=
    mapOf fun e _ => word e.2
  have back := entries.map Weights.ofList
  have same : Weights.ofList w.entries = w := by
    obtain ⟨entries, ascending⟩ := w
    simp only [Weights.ofList, sortNamed_of_ascending ascending]
  rwa [same] at back

theorem Settings.restores (s : Settings) (levels : Nat) :
    Restores (reader (levels + 2)) s.json s :=
  record
    (.field rfl rfl (long s.concurrency "usize") <| .field rfl rfl (s.queues.restores levels) <|
      .field rfl rfl (bool s.strictPriority) <|
      .field rfl rfl (s.shutdownTimeout.restores levels) <|
      .field rfl rfl (s.pollInterval.restores levels) <|
      .field rfl rfl (s.retryBackoff.restores levels) <|
      .field rfl rfl (Span.restores_option s.defaultTimeout levels) <| .done _)
    rfl

theorem Address.restores (a : Address) (levels : Nat) :
    Restores (reader (levels + 1)) a.json a :=
  record (.field rfl rfl (text a.url) <| .field rfl rfl (.textOption a.password) <| .done _) rfl

/-! ## Whole texts -/

/-- Whether reading the text of a value gives that value. -/
def ComesBack {α : Type} (reader : Nat → Reader α) (json : α → Json) : Prop :=
  ∀ x, Json.whole (reader Json.nestingLimit) (json x).bytes = .ok x

/-- What is stored comes back from its text. -/
theorem stored_round_trip :
    ComesBack Message.reader Message.json ∧ ComesBack Status.reader Status.json ∧
      ComesBack Record.reader Record.json ∧ ComesBack Event.reader Event.json ∧
      ComesBack Settings.reader Settings.json ∧ ComesBack Address.reader Address.json :=
  ⟨fun m => (m.restores 125).whole, fun s => (s.restores 125).whole,
    fun r => (r.restores 124).whole, fun e => (e.restores 125).whole,
    fun s => (s.restores 125).whole, fun a => (a.restores 126).whole⟩

end JobQueue
