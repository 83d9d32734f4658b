import JobQueue.Submission

/-!
# The last choice of a kind wins

Choices are made one after the other, and each takes the place of an earlier one of its
kind.  So a list of choices comes to this: of each kind the last choice is in force, and
what nobody chooses is as the job has it (`Submission.Draft.foldl_choose_eq`).  Empty names
and numbers of attempts of 0 are replaced after that, wherever they come from.

So nothing matters but the order of the choices of each kind.  A choice at the end of a list
makes those of its kind void, and one in front of the list yields to them: it is in force
only if there are none, just as if it came last (`Submission.ofPosting_cons`).
-/

namespace JobQueue

/-- What a choice is about. -/
inductive Choice.Kind where
  | start
  | queue
  | maxRetries
  | timeout
deriving DecidableEq, Repr

namespace Choice

/-- What a choice is about: a delay is about the start just as a fixed time is. -/
def kind : Choice → Kind
  | delay _ | processAt _ => .start
  | queue _ => .queue
  | maxRetries _ => .maxRetries
  | timeout _ => .timeout

/-- When a choice lets a job run, if it is one of when. -/
def start? : Choice → Option Start
  | delay d => some (.after d)
  | processAt t => some (.fixed t)
  | _ => none

/-- The queue of a choice. -/
def queue? : Choice → Option String
  | queue name => some name
  | _ => none

/-- The attempts of a choice. -/
def maxRetries? : Choice → Option UInt32
  | maxRetries n => some n
  | _ => none

/-- How long an attempt may take by a choice. -/
def timeout? : Choice → Option Span
  | timeout d => some d
  | _ => none

/-- A list of choices with a preference, which is in force if the list has nothing on it. -/
def preferring (c : Choice) (choices : List Choice) : List Choice :=
  if ∃ c' ∈ choices, c'.kind = c.kind then choices else choices ++ [c]

end Choice

namespace Submission

variable {α : Type} {c c' : Choice} {choices choices' : List Choice}

/-! ## Choice by choice -/

/-- A choice takes the place of one of its kind. -/
theorem Draft.choose_choose_of_kind (same : c'.kind = c.kind) (s : Draft) :
    (s.choose c).choose c' = s.choose c' := by
  cases c <;> cases c' <;> first | rfl | cases same

/-- Choices of different kinds do not meet. -/
theorem Draft.choose_comm (ne : c'.kind ≠ c.kind) (s : Draft) :
    (s.choose c).choose c' = (s.choose c').choose c := by
  cases c <;> cases c' <;> first | rfl | exact absurd rfl ne

/-- A choice that comes first is forgotten, or might as well come last. -/
theorem Draft.foldl_choose (c : Choice) (choices : List Choice) (s : Draft) :
    choices.foldl choose (s.choose c) = (c.preferring choices).foldl choose s := by
  unfold Choice.preferring
  induction choices generalizing s with
  | nil => rfl
  | cons c' rest ih =>
    rw [List.foldl_cons]
    by_cases same : c'.kind = c.kind
    · rw [choose_choose_of_kind same, if_pos ⟨c', List.mem_cons_self, same⟩, List.foldl_cons]
    · rw [choose_comm same, ih]
      simp only [List.mem_cons, exists_eq_or_imp, same, false_or]
      split <;> rfl

/-- A choice in front of a list yields to those of its kind in the list. -/
theorem ofPosting_cons (c : Choice) (choices : List Choice) (p : Posting) (now : Instant) :
    ofPosting (c :: choices) p now = ofPosting (c.preferring choices) p now := by
  rw [ofPosting, List.foldl_cons, Draft.foldl_choose]
  rfl

/-- At the end of a list a choice makes the others of its kind void. -/
theorem Draft.choose_foldl_choose (c : Choice) (choices : List Choice) (s : Draft) :
    (choices.foldl choose s).choose c =
      ((choices.filter fun c' => c'.kind ≠ c.kind).foldl choose s).choose c := by
  induction choices generalizing s with
  | nil => rfl
  | cons c' rest ih =>
    by_cases same : c'.kind = c.kind
    · have void : ((c' :: rest).foldl choose s).choose c = (rest.foldl choose s).choose c := by
        rw [List.foldl_cons, foldl_choose, Choice.preferring]
        split
        · rfl
        · rw [List.foldl_append, List.foldl_cons, List.foldl_nil, choose_choose_of_kind same.symm]
      rw [void, ih, List.filter_cons_of_neg (by simpa using same)]
    · rw [List.foldl_cons, ih, List.filter_cons_of_pos (by simpa using same), List.foldl_cons]

/-! ## All choices -/

/-- What the last choice has that has something. -/
def chosen (value : Choice → Option α) (choices : List Choice) : Option α :=
  (choices.filterMap value).getLast?

theorem chosen_cons (value : Choice → Option α) (c : Choice) (choices : List Choice) :
    chosen value (c :: choices) = (chosen value choices).or (value c) := by
  cases own : value c with
  | none => simp [chosen, own]
  | some v =>
    rw [chosen, List.filterMap_cons_some own, List.getLast?_cons, chosen]
    cases (choices.filterMap value).getLast? <;> rfl

/-- What is in force after some choices. -/
theorem Draft.foldl_choose_eq (choices : List Choice) (s : Draft) :
    choices.foldl choose s =
      { queue := (chosen Choice.queue? choices).getD s.queue
        maxRetries := (chosen Choice.maxRetries? choices).getD s.maxRetries
        start := (chosen Choice.start? choices).getD s.start
        timeout := (chosen Choice.timeout? choices).or s.timeout } := by
  induction choices generalizing s with
  | nil => rfl
  | cons c rest ih =>
    rw [List.foldl_cons, ih]
    simp only [chosen_cons]
    cases c <;> simp [choose, Choice.queue?, Choice.maxRetries?, Choice.start?, Choice.timeout?]

/-- What only choices of a kind have does not depend on the others. -/
theorem chosen_filter (value : Choice → Option α) (kind : Choice.Kind)
    (about : ∀ c v, value c = some v → c.kind = kind) (choices : List Choice) :
    chosen value (choices.filter fun c => c.kind = kind) = chosen value choices := by
  rw [chosen, chosen, List.filterMap_filter]
  congr 2
  funext c
  cases own : value c with
  | none => simp
  | some v => simp [about c v own]

/-- Nothing matters but the order of the choices of each kind. -/
theorem ofPosting_congr
    (same : ∀ kind : Choice.Kind, (choices.filter fun c => c.kind = kind) =
      choices'.filter fun c => c.kind = kind) (p : Posting) (now : Instant) :
    ofPosting choices p now = ofPosting choices' p now := by
  have equal {β : Type} (value : Choice → Option β) (kind : Choice.Kind)
      (about : ∀ c v, value c = some v → c.kind = kind) :
      chosen value choices = chosen value choices' := by
    rw [← chosen_filter value kind about choices, same, chosen_filter value kind about]
  have queue := equal Choice.queue? .queue (by rintro ⟨⟩ _ own <;> first | rfl | cases own)
  have maxRetries := equal Choice.maxRetries? .maxRetries
    (by rintro ⟨⟩ _ own <;> first | rfl | cases own)
  have start := equal Choice.start? .start (by rintro ⟨⟩ _ own <;> first | rfl | cases own)
  have timeout := equal Choice.timeout? .timeout (by rintro ⟨⟩ _ own <;> first | rfl | cases own)
  rw [ofPosting, ofPosting, Draft.foldl_choose_eq, Draft.foldl_choose_eq, queue, maxRetries, start,
    timeout]

/-- At the end of a list a choice makes the others of its kind void. -/
theorem ofPosting_concat (choices : List Choice) (c : Choice) (p : Posting) (now : Instant) :
    ofPosting (choices ++ [c]) p now =
      ofPosting ((choices.filter fun c' => c'.kind ≠ c.kind) ++ [c]) p now := by
  simp only [ofPosting, List.foldl_append, List.foldl_cons, List.foldl_nil]
  rw [Draft.choose_foldl_choose]

/-- A choice in front of a list that has one of its kind is as good as none. -/
theorem ofPosting_cons_of_mem (other : ∃ c' ∈ choices, c'.kind = c.kind) (p : Posting)
    (now : Instant) : ofPosting (c :: choices) p now = ofPosting choices p now := by
  rw [ofPosting_cons, Choice.preferring, if_pos other]

/-- Of each kind the last choice is in force, a delay and a fixed time being of one kind, and
else what the job has.  An empty name and a number of 0 then make way for the general ones,
and a delay counts from now, up to the latest instant.  So to order choices of different kinds
in another way changes nothing, a choice at the end makes those of its kind void, and one in
front changes something only if there are none of its kind. -/
theorem last_choice_wins (choices : List Choice) (p : Posting) (now : Instant) :
    let s := ofPosting choices p now
    let name := (chosen Choice.queue? choices).getD p.queue
    let attempts := (chosen Choice.maxRetries? choices).getD p.maxRetries
    let start := (chosen Choice.start? choices).getD (.after p.delay)
    (s.queue = if name = "" then "default" else name) ∧
    (s.maxRetries = if attempts = 0 then 3 else attempts) ∧
    s.timeout = chosen Choice.timeout? choices ∧
    (∀ d, start = .after d →
      s.processAt.nanos = min (now.nanos + d.nanos) Instant.latest.nanos ∧
        s.processAt.isLeap = false) ∧
    (∀ t, start = .fixed t → s.processAt = t) ∧
    (∀ choices' : List Choice,
      (∀ kind : Choice.Kind, (choices'.filter fun c => c.kind = kind) =
        choices.filter fun c => c.kind = kind) → ofPosting choices' p now = s) ∧
    (∀ c, ofPosting (choices ++ [c]) p now =
      ofPosting ((choices.filter fun c' => c'.kind ≠ c.kind) ++ [c]) p now) ∧
    ∀ c, ofPosting (c :: choices) p now ≠ s → ∀ c' ∈ choices, c'.kind ≠ c.kind := by
  intro s name attempts start
  have draft : s = ofDraft
      { queue := name, maxRetries := attempts, start
        timeout := (chosen Choice.timeout? choices).or none } now :=
    congrArg (ofDraft · now) (Draft.foldl_choose_eq choices (.ofPosting p))
  refine ⟨?_, ?_, ?_, ?_, ?_, fun _ same => ofPosting_congr same p now,
    fun c => ofPosting_concat choices c p now, fun c changes c' mem same => ?_⟩
  · rw [draft]
    rfl
  · rw [draft]
    rfl
  · rw [draft]
    exact Option.or_none
  · intro d waits
    have processAt : s.processAt = now.after d := by
      rw [draft]
      show start.time now = _
      rw [waits, Start.time]
    rw [processAt]
    exact ⟨now.nanos_after d, now.isLeap_after d⟩
  · intro t fixed
    rw [draft]
    show start.time now = _
    rw [fixed, Start.time]
  · exact changes (ofPosting_cons_of_mem ⟨c', mem, same⟩ p now)

/-- A job for the general queue by its last choice, with the general number of attempts, and
at a fixed time in spite of a delay that was chosen before; or after a delay that was chosen
last. -/
theorem last_choice_wins_of_example :
    let p : Posting :=
      { tag := "letter", data := .ok .null, queue := "mail", maxRetries := 7, delay := .zero }
    let choices : List Choice :=
      [.queue "post", .delay (.ofSeconds 5), .maxRetries 0, .queue "", .processAt .latest]
    let choices' : List Choice :=
      [.delay (.ofSeconds 5), .maxRetries 0, .processAt .latest, .queue "post", .queue ""]
    let s := ofPosting choices p .epoch
    s.queue = "default" ∧ s.maxRetries = 3 ∧ s.timeout = none ∧ s.processAt = .latest ∧
      (∀ kind : Choice.Kind, (choices'.filter fun c => c.kind = kind) =
        choices.filter fun c => c.kind = kind) ∧ ofPosting choices' p .epoch = s ∧
      ofPosting (.timeout .zero :: choices) p .epoch ≠ s ∧
      (∀ c ∈ choices, c.kind ≠ .timeout) ∧
      (ofPosting (choices ++ [.delay (.ofSeconds 5)]) p .epoch).processAt.nanos = 5000000000 := by
  intro p choices choices' s
  obtain ⟨queue, maxRetries, timeout, -, fixed, order, -, front⟩ :=
    last_choice_wins choices p .epoch
  have same : ∀ kind : Choice.Kind, (choices'.filter fun c => c.kind = kind) =
      choices.filter fun c => c.kind = kind := by
    rintro ⟨⟩ <;> decide
  have changes : ofPosting (.timeout .zero :: choices) p .epoch ≠ s := by decide
  obtain ⟨-, -, -, waits, -⟩ := last_choice_wins (choices ++ [.delay (.ofSeconds 5)]) p .epoch
  exact ⟨queue, maxRetries, timeout, fixed _ rfl, same, order _ same, changes,
    front (.timeout .zero) changes, (waits _ rfl).1⟩

end Submission

end JobQueue
