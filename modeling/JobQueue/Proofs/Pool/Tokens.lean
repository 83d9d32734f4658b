import JobQueue.Proofs.Pool.Run

/-!
# Tokens of a pool

A token is made when a message is counted or a hook begins.  It is in one place, with the
task of a slot or with an invocation (`Pool.Run.fresh`), so no two contexts share one.  A slot
waits for an invocation of its own that runs (`Pool.Run.waits`), so it cuts off no other.
Hence the tokens that were cancelled by themselves are those of the invocations that were cut
off, and the context of an invocation is cancelled for this reason or because the pool is over
(`Pool.Run.isCancelled_eq`).

`Pool.Acts` sorts the turns of a slot by what they do to invocations and tokens.
-/

namespace JobQueue

variable {η : Type}

/-- Whether an invocation is cut off with a move. -/
def Move.isCut : Move → Bool
  | finish e _ | finishHook e => e.isCut
  | _ => false

/-- How long an invocation may take: the job has its timeout, and what learns of its failure
has that too, or else as long as a stop. -/
def Invocation.limit? (i : Invocation) (s : Settings) : Option Span :=
  match i.stage with
  | .handle => i.context.timeout
  | .failed _ => some (i.context.timeout.getD s.shutdownTimeout)

namespace Phase

/-- The invocation that a slot cuts off with a move. -/
def cut? (f : Phase) (m : Move) : Option Nat := if m.isCut then f.call? else none

theorem call?_of_cut? {f : Phase} {m : Move} {n : Nat} (cut : f.cut? m = some n) :
    f.call? = some n := by
  rw [cut?] at cut
  split at cut
  · exact cut
  · cases cut

/-- The token for an invocation that a slot has not begun yet. -/
def token? : Phase → Option Token
  | counted t _ | calling t => some t.token
  | _ => none

end Phase

namespace Tokens

@[simp] theorem made_heed (k : Tokens) (call : Nat) (i : Option Invocation) :
    (k.heed call i).made = k.made := by
  unfold heed
  split <;> rfl

@[simp] theorem ofCalls_heed (k : Tokens) (call : Nat) (i : Option Invocation) :
    (k.heed call i).ofCalls = k.ofCalls := by
  unfold heed
  split <;> rfl

theorem cancelled_heed {old : List Invocation} {call : Nat} {i : Invocation}
    (found : old[call]? = some i) (k : Tokens) (ending : Ending) :
    (k.heed call (old.modify call (·.concluded ending))[call]?).cancelled =
      ((if ending.isCut then some call else none).bind (k.ofCalls[·]?)).toList ++ k.cancelled := by
  cases cut : ending.isCut <;> simp [heed, found, Invocation.concluded, Invocation.isCut, cut]

end Tokens

/-- The invocation that is cut off with a step. -/
def Deed.cut? (x : Deed η) : Option Nat := x.old?.bind (·.cut? x.move)

namespace Pool

variable {w : Worker η} {deeds : List (Deed η)} {p p' : Pool η} {slot : Nat} {f f' : Phase}
  {m : Move} {calls : List Invocation} {counters : Metrics} {tokens : Tokens} {n : Nat}
  {i : Invocation}

/-! ## What a turn does to invocations and tokens -/

/-- What a slot does to the invocations and the tokens of a pool. -/
inductive Acts (p : Pool η) (f : Phase) (m : Move) (f' : Phase) :
    List Invocation → Tokens → Prop where
  /-- Nothing, but it may let its token go. -/
  | quiet (uncut : f.cut? m = none) (idle : f'.call? = none)
    (token : f'.token? = f.token? ∨ f'.token? = none) : Acts p f m f' p.invocations p.tokens
  /-- It makes a token for its task. -/
  | minted (uncut : f.cut? m = none) (idle : f'.call? = none) (bare : f.token? = none)
    (token : f'.token? = some p.tokens.next) : Acts p f m f' p.invocations p.tokens.make
  /-- It begins an invocation with the token of its task. -/
  | begun {i : Invocation} {k : Token} (uncut : f.cut? m = none) (runs : i.ending = none)
    (limit : i.limit? p.settings = p.limit? f') (waits : f'.call? = some p.invocations.length)
    (token : f.token? = some k) (bare : f'.token? = none) :
    Acts p f m f' (p.invocations ++ [i]) (p.tokens.give k)
  /-- It begins an invocation with a token that it makes. -/
  | hooked {i : Invocation} (uncut : f.cut? m = none) (runs : i.ending = none)
    (limit : i.limit? p.settings = p.limit? f') (waits : f'.call? = some p.invocations.length)
    (token : f.token? = none) (bare : f'.token? = none) :
    Acts p f m f' (p.invocations ++ [i]) (p.tokens.make.give p.tokens.next)
  /-- Its invocation ends. -/
  | ended (call : Nat) (ending : Ending) (waited : f.call? = some call)
    (cut : f.cut? m = if ending.isCut then some call else none) (idle : f'.call? = none)
    (token : f.token? = none) (bare : f'.token? = none) :
    Acts p f m f' (p.invocations.modify call (·.concluded ending))
      (p.tokens.heed call (p.invocations.modify call (·.concluded ending))[call]?)

theorem Turn.acts (turn : p.Turn f m f' calls counters) :
    p.Acts f m f' calls (p.tokens.after f f' calls) := by
  cases turn with
  | checked =>
    have idle : (if p.isStopping then Phase.gone else .pulling).call? = none := by split <;> rfl
    have bare : (if p.isStopping then Phase.gone else .pulling).token? = none := by split <;> rfl
    exact .quiet rfl idle (.inr bare)
  | counted suits minted => exact .minted rfl rfl rfl (congrArg some minted)
  | mismatched => exact .quiet rfl rfl (.inr rfl)
  | called => exact .begun rfl rfl rfl rfl rfl rfl
  | told => exact .hooked rfl rfl rfl rfl rfl rfl
  | succeeded => exact .ended _ _ rfl rfl rfl rfl rfl
  | retried => exact .ended _ _ rfl rfl rfl rfl rfl
  | exhausted => exact .ended _ _ rfl rfl rfl rfl rfl
  | learned => exact .ended _ _ rfl rfl rfl rfl rfl
  | _ => exact .quiet rfl rfl (.inl rfl)

theorem tokens_after (found : p.slots[slot]? = some f) :
    (p.after slot f' calls counters).tokens = p.tokens.after f f' calls := by
  rw [after, found]
  rfl

/-! ## Waits for invocations -/

/-- A slot that waits after a turn waits for an invocation that has just begun. -/
theorem Acts.waits (acts : p.Acts f m f' calls tokens) (waits : f'.call? = some n) :
    n = p.invocations.length ∧ ∃ i, calls[n]? = some i ∧ i.ending = none ∧
      i.limit? p.settings = p.limit? f' := by
  cases acts with
  | quiet uncut idle => cases idle.symm.trans waits
  | minted uncut idle => cases idle.symm.trans waits
  | begun uncut runs limit begins =>
    cases begins.symm.trans waits
    exact ⟨rfl, _, List.getElem?_concat_length, runs, limit⟩
  | hooked uncut runs limit begins =>
    cases begins.symm.trans waits
    exact ⟨rfl, _, List.getElem?_concat_length, runs, limit⟩
  | ended call ending waited cut idle => cases idle.symm.trans waits

/-- A slot leaves the invocations alone that it does not wait for. -/
theorem Acts.others (acts : p.Acts f m f' calls tokens) (other : f.call? ≠ some n)
    (found : p.invocations[n]? = some i) : calls[n]? = some i := by
  have begins (j : Invocation) : (p.invocations ++ [j])[n]? = some i := by
    rw [List.getElem?_append_left (List.getElem?_eq_some_iff.mp found).1, found]
  cases acts with
  | quiet | minted => exact found
  | begun => exact begins _
  | hooked => exact begins _
  | ended call ending waited =>
    have ne : call ≠ n := fun eq => other (eq ▸ waited)
    rw [List.getElem?_modify_ne _ _ ne, found]

/-- Whether the slots wait for one running invocation each, with the limit for it. -/
structure Waits (p : Pool η) : Prop where
  apart : (p.slots.filterMap Phase.call?).Nodup
  runs : ∀ f ∈ p.slots, ∀ n, f.call? = some n → ∃ i, p.invocations[n]? = some i ∧
    i.ending = none ∧ i.limit? p.settings = p.limit? f

theorem Waits.after (waits : p.Waits) (found : p.slots[slot]? = some f)
    (acts : p.Acts f m f' calls tokens) : (p.after slot f' calls counters).Waits := by
  obtain ⟨rest, before, after⟩ := exists_rest found f'
  have apart := (before.filterMap Phase.call?).nodup_iff.mp waits.apart
  have runs : ∀ g ∈ rest, ∀ n, g.call? = some n → ∃ i, p.invocations[n]? = some i ∧
      i.ending = none ∧ i.limit? p.settings = p.limit? g :=
    fun g mem => waits.runs g (before.mem_iff.mpr (List.mem_cons_of_mem _ mem))
  constructor
  · refine (after.filterMap Phase.call?).nodup_iff.mpr ?_
    have apart : (rest.filterMap Phase.call?).Nodup :=
      apart.sublist ((List.sublist_cons_self f rest).filterMap _)
    cases waits' : f'.call? with
    | none => rwa [List.filterMap_cons_none waits']
    | some n =>
      rw [List.filterMap_cons_some waits']
      refine List.nodup_cons.mpr ⟨fun mem => ?_, apart⟩
      obtain ⟨rfl, -⟩ := acts.waits waits'
      obtain ⟨g, mem, waits⟩ := List.mem_filterMap.mp mem
      obtain ⟨i, old, -⟩ := runs g mem _ waits
      exact Nat.lt_irrefl _ (List.getElem?_eq_some_iff.mp old).1
  · intro g mem n waits'
    rcases List.mem_cons.mp (after.mem_iff.mp mem) with rfl | mem
    · exact (acts.waits waits').2
    · obtain ⟨i, old, is⟩ := runs g mem n waits'
      refine ⟨i, acts.others (fun waits => ?_) old, is⟩
      rw [List.filterMap_cons_some waits, List.nodup_cons] at apart
      exact apart.1 (List.mem_filterMap.mpr ⟨g, mem, waits'⟩)

theorem Run.waits (run : Run w deeds p) : p.Waits := by
  induction run using Run.induction with
  | start =>
    refine ⟨filterMap_start (g := Phase.call?) rfl ▸ .nil, fun f mem n waits => ?_⟩
    rw [eq_ready_of_mem_start mem] at waits
    cases waits
  | turned run found turn later ih => exact ih.after found turn.acts
  | tuned isStopping isOver run later ih => exact ⟨ih.apart, ih.runs⟩

/-- A slot cuts off only what has a limit. -/
theorem limit?_of_step {notices : List Notice} (h : p.step slot m = some (p', notices))
    (found : p.slots[slot]? = some f) (cut : f.cut? m = some n) : (p.limit? f).isSome := by
  rw [Phase.cut?] at cut
  split at cut
  · next isCut =>
    cases f with
    | running t call =>
      cases m with
      | finish ending now =>
        cases ending with
        | timedOut =>
          rw [limit?]
          cases limit : t.context.timeout with
          | some => rfl
          | none =>
            simp only [step, found, limit] at h
            cases h
        | _ => cases isCut
      | finishHook => simp [step, found] at h
      | _ => cases isCut
    | hooked => rfl
    | _ => cases cut
  · cases cut

/-! ## Invocations that are cut off -/

theorem isCut_concat {old : List Invocation} (runs : i.ending = none) (n : Nat) :
    ((old ++ [i])[n]?).any Invocation.isCut = (old[n]?).any Invocation.isCut := by
  rcases Nat.lt_trichotomy n old.length with lt | rfl | gt
  · rw [List.getElem?_append_left lt]
  · simp [Invocation.isCut, runs]
  · have past : (old ++ [i]).length ≤ n := List.length_append ▸ gt
    rw [List.getElem?_eq_none past, List.getElem?_eq_none (Nat.le_of_lt gt)]

theorem isCut_modify {old : List Invocation} {call : Nat} (found : old[call]? = some i)
    (runs : i.ending = none) (ending : Ending) (n : Nat) :
    ((old.modify call (·.concluded ending))[n]?).any Invocation.isCut =
      ((old[n]?).any Invocation.isCut || (if ending.isCut then some call else none) == some n) := by
  by_cases here : call = n
  · subst here
    cases cut : ending.isCut <;> simp [found, Invocation.concluded, Invocation.isCut, runs, cut]
  · rw [List.getElem?_modify_ne _ _ here]
    cases ending.isCut <;> simp [here]

/-- An invocation is cut off when its slot cuts it off, and stays so. -/
theorem Acts.isCut (acts : p.Acts f m f' calls tokens) (waits : p.Waits) (mem : f ∈ p.slots)
    (n : Nat) : (calls[n]?).any Invocation.isCut =
      ((p.invocations[n]?).any Invocation.isCut || f.cut? m == some n) := by
  cases acts with
  | quiet uncut | minted uncut =>
    rw [uncut]
    exact (Bool.or_false _).symm
  | begun uncut runs | hooked uncut runs =>
    rw [uncut, isCut_concat runs]
    exact (Bool.or_false _).symm
  | ended call ending waited cut =>
    obtain ⟨i, found, runs, -⟩ := waits.runs f mem call waited
    rw [cut, isCut_modify found runs]

theorem any_cut_concat (found : p.slots[slot]? = some f) (n : Nat) :
    (deeds ++ [Deed.mk p slot m p']).any (·.cut? == some n) =
      (deeds.any (·.cut? == some n) || f.cut? m == some n) := by
  have here : (Deed.mk p slot m p').cut? = f.cut? m := by
    rw [Deed.cut?, Deed.old?, found]
    rfl
  rw [List.any_append, List.any_cons, List.any_nil, Bool.or_false, here]

/-- The invocations that were cut off are those that a slot cut off. -/
theorem Run.isCut_eq (run : Run w deeds p) (n : Nat) :
    (p.invocations[n]?).any Invocation.isCut = deeds.any (·.cut? == some n) := by
  induction run using Run.induction with
  | start => rfl
  | turned run found turn later ih =>
    rw [any_cut_concat found, ← ih]
    exact turn.acts.isCut run.waits (List.mem_of_getElem? found) n
  | tuned isStopping isOver run later ih => exact ih

/-! ## Tokens that are in use -/

/-- Whether tokens are different and all made. -/
def Fresh (made : Nat) (tokens : List Token) : Prop :=
  tokens.Nodup ∧ ∀ k ∈ tokens, k.number < made

theorem Fresh.perm {made : Nat} {l l' : List Token} (fresh : Fresh made l) (perm : l.Perm l') :
    Fresh made l' :=
  ⟨perm.nodup_iff.mp fresh.1, fun k mem => fresh.2 k (perm.mem_iff.mpr mem)⟩

theorem Fresh.sublist {made : Nat} {l l' : List Token} (fresh : Fresh made l)
    (sub : l'.Sublist l) : Fresh made l' :=
  ⟨fresh.1.sublist sub, fun k mem => fresh.2 k (sub.subset mem)⟩

theorem Fresh.cons {made : Nat} {l : List Token} (fresh : Fresh made l) :
    Fresh (made + 1) (⟨made⟩ :: l) := by
  refine ⟨List.nodup_cons.mpr ⟨fun mem => Nat.lt_irrefl _ (fresh.2 _ mem), fresh.1⟩, ?_⟩
  intro k mem
  rcases List.mem_cons.mp mem with rfl | mem
  · exact Nat.lt_succ_self made
  · exact Nat.lt_succ_of_lt (fresh.2 k mem)

/-- The tokens that are with an invocation or a task. -/
def inUse (p : Pool η) : List Token := p.tokens.ofCalls ++ p.slots.filterMap Phase.token?

/-- A slot hands on its token or lets it go, or makes the next one. -/
theorem Acts.inUse (acts : p.Acts f m f' calls tokens) :
    tokens.made = p.tokens.made ∧
        (tokens.ofCalls ++ f'.token?.toList).Sublist (p.tokens.ofCalls ++ f.token?.toList) ∨
      tokens.made = p.tokens.made + 1 ∧ tokens.ofCalls ++ f'.token?.toList =
        p.tokens.ofCalls ++ f.token?.toList ++ [p.tokens.next] := by
  cases acts with
  | quiet uncut idle token =>
    refine .inl ⟨rfl, ?_⟩
    rcases token with same | bare
    · rw [same]
    · rw [bare]
      exact (List.nil_sublist _).append_left _
  | minted uncut idle bare token => exact .inr ⟨rfl, by simp [Tokens.make, bare, token]⟩
  | begun uncut runs limit waits token bare =>
    exact .inl ⟨rfl, by simp [Tokens.give, bare, token]⟩
  | hooked uncut runs limit waits token bare =>
    exact .inr ⟨rfl, by simp [Tokens.give, Tokens.make, bare, token]⟩
  | ended call ending waited cut idle token bare =>
    exact .inl ⟨Tokens.made_heed .., by simp [bare, token]⟩

/-- No token is in use twice. -/
theorem Run.fresh (run : Run w deeds p) : Fresh p.tokens.made p.inUse := by
  induction run using Run.induction with
  | start =>
    rw [inUse, filterMap_start rfl]
    exact ⟨.nil, nofun⟩
  | @turned deeds p slot f m f' calls counters run found turn later ih =>
    obtain ⟨rest, before, after⟩ := exists_rest found f'
    have split (g : Phase) (k : List Token) :
        k ++ (g :: rest).filterMap Phase.token? =
          k ++ g.token?.toList ++ rest.filterMap Phase.token? := by
      cases token : g.token? <;> simp [token]
    have old := ih.perm ((before.filterMap Phase.token?).append_left _)
    rw [split] at old
    refine Fresh.perm ?_ ((after.filterMap Phase.token?).append_left _).symm
    rw [split, tokens_after found]
    rcases turn.acts.inUse with ⟨made, sub⟩ | ⟨made, eq⟩
    · rw [made]
      exact old.sublist (sub.append_right _)
    · rw [made, eq, List.append_assoc _ [_], List.singleton_append]
      exact old.cons.perm List.perm_middle.symm
  | tuned isStopping isOver run later ih => exact ih

theorem Run.nodup_ofCalls (run : Run w deeds p) : p.tokens.ofCalls.Nodup :=
  run.fresh.1.sublist (List.sublist_append_left _ _)

/-- An invocation that begins gets a token. -/
theorem Acts.ofCalls (acts : p.Acts f m f' calls tokens) :
    ∃ more, tokens.ofCalls = p.tokens.ofCalls ++ more ∧
      calls.length = p.invocations.length + more.length := by
  cases acts with
  | quiet | minted => exact ⟨[], (List.append_nil _).symm, rfl⟩
  | @begun i k => exact ⟨[k], rfl, List.length_append⟩
  | hooked => exact ⟨[p.tokens.next], rfl, List.length_append⟩
  | ended => exact ⟨[], by simp, List.length_modify ..⟩

theorem Run.length_ofCalls (run : Run w deeds p) :
    p.tokens.ofCalls.length = p.invocations.length := by
  induction run using Run.induction with
  | start => rfl
  | turned run found turn later ih =>
    obtain ⟨more, tokens, lengths⟩ := turn.acts.ofCalls
    rw [tokens_after found, tokens, List.length_append, ih]
    exact lengths.symm
  | tuned isStopping isOver run later ih => exact ih

/-! ## Tokens that are cancelled -/

/-- The token of an invocation that is cut off is cancelled. -/
theorem Acts.cancelled (acts : p.Acts f m f' calls tokens) (waits : p.Waits)
    (mem : f ∈ p.slots) : tokens.cancelled =
      ((f.cut? m).bind (p.tokens.ofCalls[·]?)).toList ++ p.tokens.cancelled := by
  cases acts with
  | quiet uncut | minted uncut | begun uncut | hooked uncut =>
    rw [uncut]
    rfl
  | ended call ending waited cut =>
    obtain ⟨i, found, -⟩ := waits.runs f mem call waited
    rw [cut, Tokens.cancelled_heed found]

/-- Only tokens of invocations are cancelled by themselves. -/
theorem Run.cancelled_subset (run : Run w deeds p) : p.tokens.cancelled ⊆ p.tokens.ofCalls := by
  induction run using Run.induction with
  | start => exact List.nil_subset _
  | turned run found turn later ih =>
    have mem := List.mem_of_getElem? found
    obtain ⟨more, tokens, -⟩ := turn.acts.ofCalls
    rw [tokens_after found, tokens, turn.acts.cancelled run.waits mem]
    refine List.append_subset.mpr ⟨fun k mem => ?_, fun k mem => List.mem_append_left _ (ih mem)⟩
    obtain ⟨n, -, token⟩ := Option.bind_eq_some_iff.mp (Option.mem_toList.mp mem)
    exact List.mem_append_left _ (List.mem_of_getElem? token)
  | tuned isStopping isOver run later ih => exact ih

/-- Whether the token of an invocation was cancelled by itself. -/
def isRevoked (p : Pool η) (n : Nat) : Bool :=
  (p.tokens.ofCalls[n]?).any p.tokens.cancelled.contains

theorem isRevoked_iff :
    p.isRevoked n ↔ ∃ k, p.tokens.ofCalls[n]? = some k ∧ k ∈ p.tokens.cancelled := by
  simp [isRevoked, Option.any_eq_true]

/-- A slot cancels the token of the invocation that it cuts off, and no other. -/
theorem Turn.isRevoked (turn : p.Turn f m f' calls counters) (run : Run w deeds p)
    (found : p.slots[slot]? = some f) {deeds' : List (Deed η)}
    (later : Run w deeds' (p.after slot f' calls counters)) (n : Nat) :
    (p.after slot f' calls counters).isRevoked n = (p.isRevoked n || f.cut? m == some n) := by
  have mem := List.mem_of_getElem? found
  obtain ⟨more, tokens, -⟩ := turn.acts.ofCalls
  have apart := later.nodup_ofCalls
  rw [tokens_after found, tokens] at apart
  have kept {c : Nat} {k : Token} (old : p.tokens.ofCalls[c]? = some k) :
      (p.tokens.ofCalls ++ more)[c]? = some k := by
    rw [List.getElem?_append_left (List.getElem?_eq_some_iff.mp old).1, old]
  have same {c : Nat} {k : Token} (old : p.tokens.ofCalls[c]? = some k)
      (new : (p.tokens.ofCalls ++ more)[n]? = some k) : c = n := by
    have old := kept old
    exact (List.getElem?_inj (List.getElem?_eq_some_iff.mp old).1 apart).mp (old.trans new.symm)
  rw [Bool.eq_iff_iff, Bool.or_eq_true, beq_iff_eq, isRevoked_iff, isRevoked_iff,
    tokens_after found, tokens, turn.acts.cancelled run.waits mem]
  constructor
  · rintro ⟨k, new, cancelled⟩
    rcases List.mem_append.mp cancelled with cut | old
    · obtain ⟨c, cut, token⟩ := Option.bind_eq_some_iff.mp (Option.mem_toList.mp cut)
      exact .inr (same token new ▸ cut)
    · obtain ⟨c, token⟩ := List.mem_iff_getElem?.mp (run.cancelled_subset old)
      exact .inl ⟨k, same token new ▸ token, old⟩
  · rintro (⟨k, token, cancelled⟩ | cut)
    · exact ⟨k, kept token, List.mem_append_right _ cancelled⟩
    · obtain ⟨i, runs, -⟩ := run.waits.runs f mem n (Phase.call?_of_cut? cut)
      have bound := (List.getElem?_eq_some_iff.mp runs).1
      rw [← run.length_ofCalls] at bound
      have token := List.getElem?_eq_getElem bound
      refine ⟨_, kept token, List.mem_append_left _ ?_⟩
      rw [cut, Option.bind_some, token]
      exact List.mem_singleton_self _

/-- The tokens that were cancelled by themselves are those of the invocations that were cut
off. -/
theorem Run.isRevoked_eq (run : Run w deeds p) (n : Nat) :
    p.isRevoked n = (p.invocations[n]?).any Invocation.isCut := by
  induction run using Run.induction with
  | start => rfl
  | turned run found turn later ih =>
    rw [turn.isRevoked run found later, ih]
    exact (turn.acts.isCut run.waits (List.mem_of_getElem? found) n).symm
  | tuned isStopping isOver run later ih => exact ih

/-- The context of an invocation is cancelled if the invocation was cut off or the pool is
over. -/
theorem Run.isCancelled_eq (run : Run w deeds p) (found : p.invocations[n]? = some i) :
    p.isCancelled n = (i.isCut || p.isOver) := by
  have bound := (List.getElem?_eq_some_iff.mp found).1
  rw [← run.length_ofCalls] at bound
  have revoked := run.isRevoked_eq n
  rw [isRevoked, found, List.getElem?_eq_getElem bound, Option.any_some, Option.any_some] at revoked
  rw [isCancelled, List.getElem?_eq_getElem bound, Option.any_some, cancels, revoked, Bool.or_comm]

end Pool

end JobQueue
