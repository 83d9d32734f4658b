import Mathlib.Data.List.Forall2
import JobQueue.Settings.Weights

/-!
# What a text of weights says

A piece of a text of weights gives a queue a weight when it has an `=`, behind
the first of which stands a number of 32 bits (`Gives`).  A text is accepted
when it has a piece and every piece of it gives a weight, and what it says is
the weight of the last piece of every name.  Otherwise the first piece that
gives no weight decides the error, as if it stood alone.

Weights that are written piece by piece come back, whatever the order of the
pieces, the blanks in them and the zeros in front of the weights (`Writes`).
-/

namespace JobQueue

namespace Weights

/-! ## Pieces -/

/-- Whether a piece gives a queue a weight: the name of the queue, the first `=` and the
weight, with or without blanks around either. -/
def Gives (piece : List Char) (name : String) (weight : Nat) : Prop :=
  ∃ before after, piece = before ++ '=' :: after ∧ '=' ∉ before ∧
    name = String.ofList (trim before) ∧ IsNumeral (trim after) weight ∧ weight ≤ 4294967295

theorem toNat_ofNat_of_le {n : Nat} (small : n ≤ 4294967295) : (UInt32.ofNat n).toNat = n :=
  UInt32.toNat_ofNat_of_lt' (Nat.lt_succ_of_le small)

theorem ofPiece_eq_ok_iff {piece : List Char} {name : String} {weight : UInt32} :
    ofPiece piece = .ok (name, weight) ↔ Gives piece name weight.toNat := by
  constructor
  · intro read
    unfold ofPiece at read
    split at read
    · cases read
    · next before after cut =>
      obtain ⟨eq, first⟩ := cutAt_singleton_eq_some_iff.mp cut
      split at read
      · next n number =>
        obtain ⟨numeral, small⟩ := readUnsigned_eq_ok_iff.mp number
        rw [Except.ok.injEq, Prod.mk.injEq] at read
        obtain ⟨rfl, rfl⟩ := read
        rw [toNat_ofNat_of_le small]
        exact ⟨before, after, eq, first, rfl, numeral, small⟩
      · cases read
  · rintro ⟨before, after, eq, first, rfl, numeral, small⟩
    have cut := cutAt_singleton_eq_some_iff.mpr ⟨eq, first⟩
    have number := readUnsigned_eq_ok_iff.mpr ⟨numeral, small⟩
    simp only [ofPiece, cut, number, UInt32.ofNat_toNat]

theorem ofPiece_of_gives {piece : List Char} {name : String} {weight : Nat}
    (given : Gives piece name weight) : ofPiece piece = .ok (name, UInt32.ofNat weight) := by
  obtain ⟨_, _, _, _, _, _, small⟩ := id given
  rwa [ofPiece_eq_ok_iff, toNat_ofNat_of_le small]

theorem exists_ofPiece_iff {piece : List Char} :
    (∃ e, ofPiece piece = .ok e) ↔ ∃ name weight, Gives piece name weight := by
  constructor
  · rintro ⟨⟨name, weight⟩, read⟩
    exact ⟨name, weight.toNat, ofPiece_eq_ok_iff.mp read⟩
  · rintro ⟨name, weight, given⟩
    exact ⟨_, ofPiece_of_gives given⟩

theorem invalidConfig_of_ofPiece {piece : List Char} {e : QueueError}
    (h : ofPiece piece = .error e) : ∃ message, e = .invalidConfig message := by
  unfold ofPiece at h
  split at h
  · cases h
    exact ⟨_, rfl⟩
  · split at h
    · cases h
    · cases h
      exact ⟨_, rfl⟩

/-- Pieces that all give a weight are read one after the other. -/
theorem ofPieces_eq_ok_iff {ps : List (List Char)} {w m : Weights} :
    ofPieces ps w = .ok m ↔
      ∃ entries : List (String × UInt32), ps.map ofPiece = entries.map .ok ∧
        m = entries.foldl (fun w e => w.insert e.1 e.2) w := by
  induction ps generalizing w with
  | nil =>
    constructor
    · intro read
      cases read
      exact ⟨[], rfl, rfl⟩
    · rintro ⟨entries, read, rfl⟩
      rw [List.map_eq_nil_iff.mp read.symm]
      rfl
  | cons p ps ih =>
    simp only [ofPieces, List.map_cons]
    split
    · next e unread =>
      simp only [reduceCtorEq, false_iff, not_exists, not_and]
      intro entries read
      obtain ⟨_, _, _, eq, _⟩ := List.map_eq_cons_iff.mp read.symm
      rw [unread] at eq
      cases eq
    · next name weight read =>
      rw [ih]
      constructor
      · rintro ⟨entries, rest, rfl⟩
        exact ⟨(name, weight) :: entries, by rw [read, rest, List.map_cons], rfl⟩
      · rintro ⟨entries, all, rfl⟩
        obtain ⟨e, rest, rfl, eq, others⟩ := List.map_eq_cons_iff.mp all.symm
        cases eq.trans read
        exact ⟨rest, others.symm, rfl⟩

/-- The first piece that gives no weight decides the error. -/
theorem ofPieces_eq_error_iff {ps : List (List Char)} {w : Weights} {e : QueueError} :
    ofPieces ps w = .error e ↔
      ∃ before p after, ps = before ++ p :: after ∧ (∀ q ∈ before, ∃ entry, ofPiece q = .ok entry) ∧
        ofPiece p = .error e := by
  induction ps generalizing w with
  | nil => simp [ofPieces]
  | cons p ps ih =>
    simp only [ofPieces]
    split
    · next f unread =>
      constructor
      · intro eq
        cases eq
        exact ⟨[], p, ps, rfl, by simp, unread⟩
      · rintro ⟨before, q, after, eq, good, bad⟩
        cases before with
        | nil =>
          cases eq
          cases unread.symm.trans bad
          rfl
        | cons r before =>
          cases eq
          obtain ⟨entry, read⟩ := good p List.mem_cons_self
          cases unread.symm.trans read
    · next name weight read =>
      rw [ih]
      constructor
      · rintro ⟨before, q, after, rfl, good, bad⟩
        exact ⟨p :: before, q, after, rfl, List.forall_mem_cons.mpr ⟨⟨_, read⟩, good⟩, bad⟩
      · rintro ⟨before, q, after, eq, good, bad⟩
        cases before with
        | nil =>
          cases eq
          cases read.symm.trans bad
        | cons r before =>
          cases eq
          exact ⟨before, q, after, rfl, fun q mem => good q (List.mem_cons_of_mem p mem), bad⟩

theorem eq_of_entries {w w' : Weights} (h : w.entries = w'.entries) : w = w' := by
  cases w
  cases w'
  cases h
  rfl

/-- To give weights one after the other is to sort them. -/
theorem foldl_insert (entries : List (String × UInt32)) :
    entries.foldl (fun w e => w.insert e.1 e.2) empty = ofList entries := by
  suffices step : ∀ w : Weights, (entries.foldl (fun w e => w.insert e.1 e.2) w).entries =
      entries.foldl (fun sorted e => insertNamed e.1 e.2 sorted) w.entries from
    eq_of_entries (step empty)
  induction entries with
  | nil => exact fun _ => rfl
  | cons e rest ih => exact fun w => ih (w.insert e.1 e.2)

theorem ofPieces_empty_eq_ok_iff {ps : List (List Char)} {m : Weights} :
    ofPieces ps empty = .ok m ↔
      ∃ entries : List (String × UInt32), ps.map ofPiece = entries.map .ok ∧
        m = ofList entries := by
  simp only [ofPieces_eq_ok_iff, foldl_insert]

/-! ## Texts -/

theorem ofList_entries_eq_nil_iff {entries : List (String × UInt32)} :
    (ofList entries).entries = [] ↔ entries = [] := by
  constructor
  · intro none
    cases entries with
    | nil => rfl
    | cons e rest =>
      have mem : e.1 ∈ (ofList (e :: rest)).entries.map Prod.fst :=
        mem_names_sortNamed.mpr List.mem_cons_self
      rw [none] at mem
      exact absurd mem List.not_mem_nil
  · rintro rfl
    rfl

theorem ofText_eq_ok_iff {text : List Char} {m : Weights} :
    ofText text = .ok m ↔
      ∃ entries : List (String × UInt32), entries ≠ [] ∧
        (filledPieces text).map ofPiece = entries.map .ok ∧ m = ofList entries := by
  unfold ofText
  split
  · next e unread =>
    simp only [reduceCtorEq, false_iff, not_exists, not_and]
    intro entries _ all _
    cases unread.symm.trans (ofPieces_empty_eq_ok_iff.mpr ⟨entries, all, rfl⟩)
  · next w read =>
    split
    · next none =>
      simp only [reduceCtorEq, false_iff, not_exists, not_and]
      intro entries nonempty all _
      cases read.symm.trans (ofPieces_empty_eq_ok_iff.mpr ⟨entries, all, rfl⟩)
      exact nonempty (ofList_entries_eq_nil_iff.mp none)
    · next filled =>
      rw [Except.ok.injEq]
      constructor
      · rintro rfl
        obtain ⟨entries, all, rfl⟩ := ofPieces_empty_eq_ok_iff.mp read
        exact ⟨entries, fun none => filled (ofList_entries_eq_nil_iff.mpr none), all, rfl⟩
      · rintro ⟨entries, -, all, rfl⟩
        cases read.symm.trans (ofPieces_empty_eq_ok_iff.mpr ⟨entries, all, rfl⟩)
        rfl

theorem ofText_eq_error_iff {text : List Char} {e : QueueError} :
    ofText text = .error e ↔
      (filledPieces text = [] ∧ e = .invalidConfig "no queues given") ∨
      ∃ before p after, filledPieces text = before ++ p :: after ∧
        (∀ q ∈ before, ∃ entry, ofPiece q = .ok entry) ∧ ofPiece p = .error e := by
  rw [← @ofPieces_eq_error_iff _ empty]
  unfold ofText
  split
  · next f unread =>
    have filled : filledPieces text ≠ [] := fun none => by
      rw [none] at unread
      cases unread
    simp [unread, filled]
  · next w read =>
    have none_iff : w.entries = [] ↔ filledPieces text = [] := by
      obtain ⟨entries, all, rfl⟩ := ofPieces_empty_eq_ok_iff.mp read
      rw [ofList_entries_eq_nil_iff, ← List.map_eq_nil_iff, ← all, List.map_eq_nil_iff]
    split
    · next none => simp [none_iff.mp none, ofPieces, eq_comm]
    · next filled => simp [read, mt none_iff.mpr filled]

theorem filledPieces_eq (text : List Char) :
    filledPieces text = ((text.splitOn ',').map trim).filter fun p => p ≠ [] := by
  rw [filledPieces, pieces_eq_splitOn]

/-- A piece is the only piece of itself. -/
theorem filledPieces_of_mem {text p : List Char} (h : p ∈ filledPieces text) :
    filledPieces p = [p] := by
  obtain ⟨mem, filled⟩ := List.mem_filter.mp h
  obtain ⟨q, here, rfl⟩ := List.mem_map.mp mem
  have apart : ',' ∉ trim q := fun comma => not_mem_of_mem_pieces here (mem_of_mem_trim comma)
  rw [filledPieces, pieces_of_not_mem apart, List.map_singleton, trim_of_trimmed (trimmed_trim q),
    List.filter_singleton, filled]
  rfl

/-- A text is accepted when it has a piece and every piece gives a weight. -/
theorem exists_ofText_iff {text : List Char} :
    (∃ m, ofText text = .ok m) ↔
      filledPieces text ≠ [] ∧ ∀ p ∈ filledPieces text, ∃ name weight, Gives p name weight := by
  constructor
  · rintro ⟨m, read⟩
    rw [ofText_eq_ok_iff] at read
    obtain ⟨entries, nonempty, all, -⟩ := read
    refine ⟨fun none => nonempty ?_, fun p mem => exists_ofPiece_iff.mp ?_⟩
    · rw [none] at all
      exact List.map_eq_nil_iff.mp all.symm
    · obtain ⟨e, -, eq⟩ := List.mem_map.mp (all ▸ List.mem_map_of_mem mem)
      exact ⟨e, eq.symm⟩
  · rintro ⟨filled, all⟩
    cases read : ofText text with
    | ok m => exact ⟨m, rfl⟩
    | error e =>
      rw [ofText_eq_error_iff] at read
      rcases read with ⟨none, -⟩ | ⟨before, p, after, eq, -, bad⟩
      · exact absurd none filled
      · have mem : p ∈ filledPieces text := eq ▸ List.mem_append_right before List.mem_cons_self
        obtain ⟨entry, good⟩ := exists_ofPiece_iff.mpr (all p mem)
        cases good.symm.trans bad

/-- A name has the weight of the last piece that gives it one. -/
theorem weight?_of_ofText {text : List Char} {m : Weights} (read : ofText text = .ok m)
    {name : String} {weight : UInt32} :
    m.weight? name = some weight ↔
      ∃ before p after, filledPieces text = before ++ p :: after ∧ Gives p name weight.toNat ∧
        ∀ q ∈ after, ∀ other, ¬ Gives q name other := by
  rw [ofText_eq_ok_iff] at read
  obtain ⟨entries, -, all, rfl⟩ := read
  rw [weight?, ofList, lookup_sortNamed, lookupNamed_reverse_eq_some_iff]
  constructor
  · rintro ⟨sooner, later, rfl, last⟩
    rw [List.map_append, List.map_cons] at all
    obtain ⟨before, _, eq, -, rest⟩ := List.map_eq_append_iff.mp all
    obtain ⟨p, after, rfl, given, others⟩ := List.map_eq_cons_iff.mp rest
    refine ⟨before, p, after, eq, ofPiece_eq_ok_iff.mp given, fun q mem other again => last ?_⟩
    obtain ⟨e, here, same⟩ := List.mem_map.mp (others ▸ List.mem_map_of_mem mem)
    rw [ofPiece_of_gives again, Except.ok.injEq] at same
    exact List.mem_map.mpr ⟨e, here, by rw [same]⟩
  · rintro ⟨before, p, after, eq, given, last⟩
    rw [eq, List.map_append, List.map_cons] at all
    obtain ⟨sooner, _, rfl, -, rest⟩ := List.map_eq_append_iff.mp all.symm
    obtain ⟨e, later, rfl, same, others⟩ := List.map_eq_cons_iff.mp rest
    cases same.trans (ofPiece_eq_ok_iff.mpr given)
    refine ⟨sooner, later, rfl, fun again => ?_⟩
    obtain ⟨⟨_, other⟩, here, rfl⟩ := List.mem_map.mp again
    have given : Except.ok (_, other) ∈ after.map ofPiece := others ▸ List.mem_map_of_mem here
    obtain ⟨q, mem, same⟩ := List.mem_map.mp given
    exact last q mem other.toNat (ofPiece_eq_ok_iff.mp same)

theorem invalidConfig_of_ofText {text : List Char} {e : QueueError}
    (unread : ofText text = .error e) : ∃ message, e = .invalidConfig message := by
  rw [ofText_eq_error_iff] at unread
  rcases unread with ⟨-, rfl⟩ | ⟨_, _, _, -, -, bad⟩
  · exact ⟨_, rfl⟩
  · exact invalidConfig_of_ofPiece bad

/-- The first piece that gives no weight decides the error. -/
theorem ofText_of_first_bad {text p : List Char} {before after : List (List Char)}
    (eq : filledPieces text = before ++ p :: after)
    (good : ∀ q ∈ before, ∃ name weight, Gives q name weight)
    (bad : ¬ ∃ name weight, Gives p name weight) :
    ∃ e, ofText text = .error e ∧ ofText p = .error e := by
  cases unread : ofPiece p with
  | ok entry => exact absurd (exists_ofPiece_iff.mp ⟨entry, unread⟩) bad
  | error e =>
    have alone : filledPieces p = [] ++ p :: [] :=
      filledPieces_of_mem (eq ▸ List.mem_append_right before List.mem_cons_self)
    simp only [ofText_eq_error_iff]
    exact ⟨e,
      .inr ⟨before, p, after, eq, fun q mem => exists_ofPiece_iff.mpr (good q mem), unread⟩,
      .inr ⟨[], p, [], alone, by simp, unread⟩⟩

/-! ## Texts that are written -/

/-- Whether a name can stand in a text of weights as it is. -/
def Plain (name : String) : Prop :=
  ',' ∉ name.toList ∧ '=' ∉ name.toList ∧ Trimmed name.toList

instance (name : String) : Decidable (Plain name) := inferInstanceAs (Decidable (_ ∧ _ ∧ _))

/-- Whether a piece writes a queue with its weight, with any blanks around either and any zeros
in front of the weight. -/
def Writes (entry : String × UInt32) (piece : List Char) : Prop :=
  ∃ a b c d zeros, (∀ x ∈ a ++ b ++ c ++ d, isBlank x) ∧
    piece = a ++ entry.1.toList ++ b ++
      '=' :: (c ++ (List.replicate zeros '0' ++ Nat.toDigits 10 entry.2.toNat) ++ d)

theorem isBlank_of_isDigit {c : Char} (h : c.isDigit) : isBlank c = false := by
  have ⟨least, most⟩ := Char.isDigit_iff_toNat.mp h
  simp only [Char.reduceToNat] at least most
  simp only [isBlank, Bool.or_eq_false_iff, Bool.and_eq_false_iff, decide_eq_false_iff_not]
  omega

/-- A piece that writes a queue with its weight gives the queue that weight. -/
theorem Writes.gives {entry : String × UInt32} {piece : List Char} (h : Writes entry piece)
    (plain : Plain entry.1) : Gives (trim piece) entry.1 entry.2.toNat := by
  obtain ⟨a, b, c, d, zeros, blank, rfl⟩ := h
  obtain ⟨-, apart, trimmed⟩ := plain
  simp only [List.forall_mem_append] at blank
  obtain ⟨⟨⟨before, behind⟩, ahead⟩, after⟩ := blank
  have digits : Trimmed (List.replicate zeros '0' ++ Nat.toDigits 10 entry.2.toNat) :=
    trimmed_of_filled fun x mem => isBlank_of_isDigit (isDigit_of_mem_zeros mem)
  refine ⟨trimStart (a ++ entry.1.toList ++ b), trimEnd _, trim_append_cons (by decide) _ _,
    fun mem => ?_, ?_, ?_, ?_⟩
  · have here := List.dropWhile_subset isBlank mem
    simp only [List.mem_append] at here
    rcases here with (mem | mem) | mem
    · exact absurd (before _ mem) (by decide)
    · exact apart mem
    · exact absurd (behind _ mem) (by decide)
  · rw [trim_trimStart, trim_between before behind, trim_of_trimmed trimmed, String.ofList_toList]
  · rw [trim_trimEnd, trim_between ahead after, trim_of_trimmed digits]
    exact isNumeral_zeros zeros entry.2.toNat
  · exact Nat.le_of_lt_succ entry.2.toNat_lt

theorem Writes.not_comma {entry : String × UInt32} {piece : List Char} (h : Writes entry piece)
    (plain : Plain entry.1) : ',' ∉ piece := by
  obtain ⟨a, b, c, d, zeros, blank, rfl⟩ := h
  intro comma
  simp only [List.forall_mem_append] at blank
  obtain ⟨⟨⟨before, behind⟩, ahead⟩, after⟩ := blank
  rw [List.mem_append, List.mem_append, List.mem_append, List.mem_cons, List.mem_append,
    List.mem_append] at comma
  rcases comma with ((mem | mem) | mem) | equals | (mem | mem) | mem
  · exact absurd (before _ mem) (by decide)
  · exact plain.1 mem
  · exact absurd (behind _ mem) (by decide)
  · exact absurd equals (by decide)
  · exact absurd (ahead _ mem) (by decide)
  · exact absurd (isDigit_of_mem_zeros mem) (by decide)
  · exact absurd (after _ mem) (by decide)

/-- Weights that are written come back. -/
theorem ofText_written {m : Weights} (nonempty : m.entries ≠ [])
    (plain : ∀ e ∈ m.entries, Plain e.1) {entries : List (String × UInt32)}
    (perm : entries.Perm m.entries) {ps : List (List Char)}
    (written : List.Forall₂ Writes entries (ps.filter fun p => ¬ p.all isBlank)) :
    ofText ([','].intercalate ps) = .ok m := by
  have both : List.Forall₂ (fun e p => Plain e.1 ∧ Writes e p) entries
      (ps.filter fun p => ¬ p.all isBlank) :=
    (List.forall₂_and_left _ _).mpr ⟨fun e mem => plain e (perm.mem_iff.mp mem), written⟩
  have listed : entries ≠ [] := fun none => nonempty (List.nil_perm.mp (none ▸ perm))
  have filled : ps ≠ [] := by
    rintro rfl
    exact listed (List.forall₂_nil_right_iff.mp written)
  have free : List.Forall₂ (fun p _ => ',' ∉ p ∧ True) (ps.filter fun p => ¬ p.all isBlank)
      entries :=
    both.flip.imp fun p e h => ⟨h.2.not_comma h.1, trivial⟩
  have apart : ∀ p ∈ ps, ',' ∉ p := by
    intro p mem comma
    by_cases blank : p.all isBlank
    · exact absurd (List.all_eq_true.mp blank _ comma) (by decide)
    · have here : p ∈ ps.filter fun p => ¬ p.all isBlank :=
        List.mem_filter.mpr ⟨mem, decide_eq_true blank⟩
      exact ((List.forall₂_and_left _ _).mp free).1 p here comma
  have split : filledPieces ([','].intercalate ps) =
      (ps.filter fun p => ¬ p.all isBlank).map trim := by
    rw [filledPieces, pieces_intercalate apart filled, List.filter_map]
    congr 2
    funext p
    simp only [Function.comp_apply, ne_eq, trim_eq_nil_iff, List.all_eq_true]
  have read : (filledPieces ([','].intercalate ps)).map ofPiece = entries.map .ok := by
    rw [split, List.map_map, ← List.forall₂_eq_eq_eq, List.forall₂_map_left_iff,
      List.forall₂_map_right_iff]
    exact both.flip.imp fun p e h => ofPiece_eq_ok_iff.mpr (h.2.gives h.1)
  exact ofText_eq_ok_iff.mpr
    ⟨entries, listed, read, eq_of_entries (sortNamed_of_perm perm m.ascending).symm⟩

/-- Which texts are texts of weights, what they say, and what a text says that is none. -/
theorem ofText_exactly (text : List Char) :
    filledPieces text = (((text.splitOn ',').map trim).filter fun p => p ≠ []) ∧
    ((∃ m, ofText text = .ok m) ↔
      filledPieces text ≠ [] ∧ ∀ p ∈ filledPieces text, ∃ name weight, Gives p name weight) ∧
    (∀ m, ofText text = .ok m → ∀ name weight, m.weight? name = some weight ↔
      ∃ before p after, filledPieces text = before ++ p :: after ∧ Gives p name weight.toNat ∧
        ∀ q ∈ after, ∀ other, ¬ Gives q name other) ∧
    (∀ e, ofText text = .error e → ∃ message, e = .invalidConfig message) ∧
    (∀ before p after, filledPieces text = before ++ p :: after →
      (∀ q ∈ before, ∃ name weight, Gives q name weight) →
      (¬ ∃ name weight, Gives p name weight) →
      ∃ e, ofText text = .error e ∧ ofText p = .error e) ∧
    ∀ (m : Weights) (entries : List (String × UInt32)) (ps : List (List Char)),
      m.entries ≠ [] → (∀ e ∈ m.entries, Plain e.1) → entries.Perm m.entries →
      List.Forall₂ Writes entries (ps.filter fun p => ¬ p.all isBlank) →
      text = [','].intercalate ps → ofText text = .ok m := by
  refine ⟨filledPieces_eq text, exists_ofText_iff, fun _ read _ _ => weight?_of_ofText read,
    fun _ => invalidConfig_of_ofText, fun _ _ _ => ofText_of_first_bad, ?_⟩
  rintro m entries ps nonempty plain perm written rfl
  exact ofText_written nonempty plain perm written

/-- A name that is there twice; a piece without a weight behind a good one; and two queues that
are written with blanks, zeros and an empty piece. -/
theorem ofText_exactly_of_example :
    (∃ m, ofText "a=1, b = +2,a=3".toList = .ok m ∧ m.weight? "a" = some 3) ∧
    (∃ e, ofText "a=1,b,c".toList = .error e ∧ ofText "b".toList = .error e) ∧
    ofText " b =02,,a= 1 ".toList = .ok (ofList [("a", 1), ("b", 2)]) := by
  have a1 : Gives "a=1".toList "a" 1 := ⟨['a'], ['1'], by decide, by decide, by decide,
    ⟨['1'], by decide, List.forall_mem_singleton.mpr rfl, .inl (by decide), by decide⟩, by decide⟩
  have b2 : Gives "b = +2".toList "b" 2 := ⟨"b ".toList, " +2".toList, by decide, by decide,
    by decide,
    ⟨['2'], by decide, List.forall_mem_singleton.mpr rfl, .inr (by decide), by decide⟩, by decide⟩
  have a3 : Gives "a=3".toList "a" 3 := ⟨['a'], ['3'], by decide, by decide, by decide,
    ⟨['3'], by decide, List.forall_mem_singleton.mpr rfl, .inl (by decide), by decide⟩, by decide⟩
  have pieces : filledPieces "a=1, b = +2,a=3".toList =
    ["a=1".toList, "b = +2".toList, "a=3".toList] := by decide
  refine ⟨?_, ?_, ?_⟩
  · have all : ∀ p ∈ filledPieces "a=1, b = +2,a=3".toList, ∃ name weight, Gives p name weight := by
      simp only [pieces, List.forall_mem_cons]
      exact ⟨⟨_, _, a1⟩, ⟨_, _, b2⟩, ⟨_, _, a3⟩, by simp⟩
    obtain ⟨m, read⟩ := (ofText_exactly _).2.1.mpr ⟨by decide, all⟩
    exact ⟨m, read, ((ofText_exactly _).2.2.1 m read "a" 3).mpr
      ⟨["a=1".toList, "b = +2".toList], _, [], pieces, a3, by simp⟩⟩
  · refine (ofText_exactly _).2.2.2.2.1 ["a=1".toList] "b".toList ["c".toList] (by decide)
      (List.forall_mem_singleton.mpr ⟨_, _, a1⟩) ?_
    rintro ⟨_, _, before, after, eq, -⟩
    have equals : '=' ∈ "b".toList := eq ▸ List.mem_append_right before List.mem_cons_self
    exact absurd equals (by decide)
  · refine (ofText_exactly _).2.2.2.2.2 _ [("b", 2), ("a", 1)]
      [" b =02".toList, [], "a= 1 ".toList] (by decide) (by decide) (by decide) ?_ (by decide)
    have kept : [" b =02".toList, [], "a= 1 ".toList].filter (fun p => ¬ p.all isBlank) =
        [" b =02".toList, "a= 1 ".toList] := by decide
    rw [kept]
    exact .cons ⟨[' '], [' '], [], [], 1, by simp [isBlank], by decide⟩
      (.cons ⟨[], [], [' '], [' '], 0, by simp [isBlank], by decide⟩ .nil)

end Weights

end JobQueue
