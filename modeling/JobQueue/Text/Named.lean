/-!
# Named values

Lists of values under names, in ascending order of the names and without
repetition.  `insertNamed` puts a value under a name, in place of the value that
is there; it keeps the order (`pairwise_insertNamed`) and changes what is under
that name only (`lookup_insertNamed`).  `sortNamed` brings values into that form
and keeps the last one of each name (`lookup_sortNamed`).
-/

namespace JobQueue

variable {α : Type}

/-- Whether the names of named values ascend. -/
abbrev Ascending (fields : List (String × α)) : Prop := fields.Pairwise fun a b => a.1 < b.1

/-- Put a value under a name, in place of the value that is there. -/
def insertNamed (name : String) (value : α) : List (String × α) → List (String × α)
  | [] => [(name, value)]
  | (n, v) :: rest =>
    if name < n then (name, value) :: (n, v) :: rest
    else if name = n then (name, value) :: rest
    else (n, v) :: insertNamed name value rest

/-- Named values in ascending order; the last one of a name wins. -/
def sortNamed (fields : List (String × α)) : List (String × α) :=
  fields.foldl (fun sorted f => insertNamed f.1 f.2 sorted) []

/-- The value under a name. -/
def lookupNamed (name : String) : List (String × α) → Option α
  | [] => none
  | (n, v) :: rest => if n = name then some v else lookupNamed name rest

theorem insertNamed_nil (name : String) (value : α) :
    insertNamed name value [] = [(name, value)] := rfl

theorem insertNamed_cons (name : String) (value : α) (f : String × α) (rest : List (String × α)) :
    insertNamed name value (f :: rest) =
      if name < f.1 then (name, value) :: f :: rest
      else if name = f.1 then (name, value) :: rest
      else f :: insertNamed name value rest := rfl

theorem lookupNamed_nil (name : String) : lookupNamed name ([] : List (String × α)) = none := rfl

theorem lookupNamed_cons (name : String) (f : String × α) (rest : List (String × α)) :
    lookupNamed name (f :: rest) = if f.1 = name then some f.2 else lookupNamed name rest := rfl

theorem lt_of_not_lt {a b : String} (h : ¬ a < b) (h' : a ≠ b) : b < a :=
  Std.lt_of_le_of_ne (String.not_lt.mp h) (Ne.symm h')

/-- Only the name that is put in comes to the names that are there. -/
theorem mem_insertNamed {name : String} {value : α} {fields : List (String × α)}
    {f : String × α} (h : f ∈ insertNamed name value fields) : f = (name, value) ∨ f ∈ fields := by
  induction fields with
  | nil => exact .inl (List.mem_singleton.mp h)
  | cons g rest ih =>
    rw [insertNamed_cons] at h
    split at h
    · simpa using h
    · split at h
      · rcases List.mem_cons.mp h with h | h
        · exact .inl h
        · exact .inr (List.mem_cons_of_mem _ h)
      · rcases List.mem_cons.mp h with h | h
        · exact .inr (h ▸ List.mem_cons_self)
        · exact (ih h).imp id (List.mem_cons_of_mem _)

theorem pairwise_insertNamed {name : String} {value : α} {fields : List (String × α)}
    (h : Ascending fields) : Ascending (insertNamed name value fields) := by
  induction fields with
  | nil => exact List.pairwise_singleton _ _
  | cons g rest ih =>
    obtain ⟨hg, hrest⟩ := List.pairwise_cons.mp h
    rw [insertNamed_cons]
    split
    · next hlt =>
      refine List.pairwise_cons.mpr ⟨fun f hf => ?_, h⟩
      rcases List.mem_cons.mp hf with rfl | hf
      · exact hlt
      · exact String.lt_trans hlt (hg f hf)
    · next hlt =>
      split
      · next heq => exact List.pairwise_cons.mpr ⟨fun f hf => heq ▸ hg f hf, hrest⟩
      · next hne =>
        refine List.pairwise_cons.mpr ⟨fun f hf => ?_, ih hrest⟩
        rcases mem_insertNamed hf with rfl | hf
        · exact lt_of_not_lt hlt hne
        · exact hg f hf

theorem pairwise_sortNamed (fields : List (String × α)) : Ascending (sortNamed fields) := by
  suffices h : ∀ acc : List (String × α), Ascending acc →
      Ascending (fields.foldl (fun sorted f => insertNamed f.1 f.2 sorted) acc) from
    h [] List.Pairwise.nil
  induction fields with
  | nil => exact fun _ h => h
  | cons f rest ih => exact fun acc h => ih _ (pairwise_insertNamed h)

theorem mem_sortNamed {fields : List (String × α)} {f : String × α} (h : f ∈ sortNamed fields) :
    f ∈ fields := by
  suffices step : ∀ acc : List (String × α),
      f ∈ fields.foldl (fun sorted f => insertNamed f.1 f.2 sorted) acc → f ∈ acc ∨ f ∈ fields from
    (step [] h).resolve_left List.not_mem_nil
  clear h
  induction fields with
  | nil => exact fun _ h => .inl h
  | cons g rest ih =>
    intro acc h
    rcases ih _ h with h | h
    · rcases mem_insertNamed h with rfl | h
      · exact .inr List.mem_cons_self
      · exact .inl h
    · exact .inr (List.mem_cons_of_mem _ h)

/-- A value under a name beyond all others goes to the end. -/
theorem insertNamed_of_lt {name : String} {fields : List (String × α)} (value : α)
    (h : ∀ f ∈ fields, f.1 < name) : insertNamed name value fields = fields ++ [(name, value)] := by
  induction fields with
  | nil => rfl
  | cons g rest ih =>
    have less := h g List.mem_cons_self
    have later : ¬ name < g.1 := fun h => String.lt_irrefl _ (String.lt_trans less h)
    have other : ¬ name = g.1 := fun h => String.lt_irrefl _ (h ▸ less)
    rw [insertNamed_cons, if_neg later, if_neg other, List.cons_append,
      ih fun f mem => h f (List.mem_cons_of_mem _ mem)]

/-- Sorting leaves ascending names as they are. -/
theorem sortNamed_of_ascending {fields : List (String × α)} (h : Ascending fields) :
    sortNamed fields = fields := by
  suffices step : ∀ acc : List (String × α), Ascending (acc ++ fields) →
      fields.foldl (fun sorted f => insertNamed f.1 f.2 sorted) acc = acc ++ fields from
    step [] h
  clear h
  induction fields with
  | nil => simp
  | cons g rest ih =>
    intro acc h
    have less : ∀ f ∈ acc, f.1 < g.1 := fun f mem =>
      (List.pairwise_append.mp h).2.2 f mem g List.mem_cons_self
    rw [List.foldl_cons, insertNamed_of_lt g.2 less, ih, List.append_assoc, List.singleton_append]
    rwa [List.append_assoc, List.singleton_append]

/-- Putting a value under a name changes what is under that name only. -/
theorem lookup_insertNamed (name other : String) (value : α) (fields : List (String × α)) :
    lookupNamed other (insertNamed name value fields) =
      if name = other then some value else lookupNamed other fields := by
  induction fields with
  | nil => rfl
  | cons g rest ih =>
    rw [insertNamed_cons]
    split
    · rw [lookupNamed_cons]
    · split
      · next same =>
        rw [lookupNamed_cons, lookupNamed_cons, ← same]
        split <;> rfl
      · next differ =>
        rw [lookupNamed_cons, lookupNamed_cons, ih]
        by_cases here : g.1 = other
        · rw [if_pos here, if_pos here, if_neg fun eq => differ (eq.trans here.symm)]
        · rw [if_neg here, if_neg here]

theorem lookupNamed_append (name : String) (fields more : List (String × α)) :
    lookupNamed name (fields ++ more) = (lookupNamed name fields).or (lookupNamed name more) := by
  induction fields with
  | nil => rfl
  | cons f rest ih =>
    rw [List.cons_append, lookupNamed_cons, lookupNamed_cons, ih]
    split <;> rfl

theorem lookupNamed_eq_none_iff {name : String} {fields : List (String × α)} :
    lookupNamed name fields = none ↔ name ∉ fields.map Prod.fst := by
  induction fields with
  | nil => exact iff_of_true rfl List.not_mem_nil
  | cons f rest ih =>
    rw [lookupNamed_cons, List.map_cons, List.mem_cons, not_or, ← ih]
    split
    · next here => exact iff_of_false (Option.some_ne_none _) fun apart => apart.1 here.symm
    · next other => exact (and_iff_right (Ne.symm other)).symm

/-- The value under a name is the first one that stands there. -/
theorem lookupNamed_eq_some_iff {name : String} {value : α} {fields : List (String × α)} :
    lookupNamed name fields = some value ↔
      ∃ before after, fields = before ++ (name, value) :: after ∧ name ∉ before.map Prod.fst := by
  constructor
  · intro h
    induction fields with
    | nil => cases h
    | cons f rest ih =>
      obtain ⟨n, v⟩ := f
      simp only [lookupNamed_cons] at h
      split at h
      · next eq =>
        cases h
        exact ⟨[], rest, by rw [eq, List.nil_append], List.not_mem_nil⟩
      · next other =>
        obtain ⟨before, after, rfl, fresh⟩ := ih h
        exact ⟨(n, v) :: before, after, rfl,
          List.not_mem_cons_of_ne_of_not_mem (Ne.symm other) fresh⟩
  · rintro ⟨before, after, rfl, fresh⟩
    rw [lookupNamed_append, lookupNamed_eq_none_iff.mpr fresh, Option.none_or, lookupNamed_cons,
      if_pos rfl]

/-- The value under a name in the reverse order is the last one that stands there. -/
theorem lookupNamed_reverse_eq_some_iff {name : String} {value : α} {fields : List (String × α)} :
    lookupNamed name fields.reverse = some value ↔
      ∃ before after, fields = before ++ (name, value) :: after ∧ name ∉ after.map Prod.fst := by
  rw [lookupNamed_eq_some_iff]
  constructor
  · rintro ⟨later, sooner, eq, last⟩
    refine ⟨sooner.reverse, later.reverse, ?_, by simpa using last⟩
    simp [List.reverse_eq_iff.mp eq]
  · rintro ⟨before, after, rfl, last⟩
    exact ⟨after.reverse, before.reverse, by simp, by simpa using last⟩

/-- Of names that differ, every value is the one under its name. -/
theorem lookupNamed_eq_some_iff_mem {name : String} {value : α} {fields : List (String × α)}
    (once : (fields.map Prod.fst).Nodup) :
    lookupNamed name fields = some value ↔ (name, value) ∈ fields := by
  rw [lookupNamed_eq_some_iff]
  constructor
  · rintro ⟨before, after, rfl, _⟩
    exact List.mem_append_right before List.mem_cons_self
  · intro mem
    obtain ⟨before, after, rfl⟩ := List.append_of_mem mem
    refine ⟨before, after, rfl, fun again => ?_⟩
    rw [List.map_append, List.nodup_append] at once
    exact once.2.2 name again name List.mem_cons_self rfl

theorem nodup_names_of_ascending {fields : List (String × α)} (h : Ascending fields) :
    (fields.map Prod.fst).Nodup := by
  refine List.pairwise_map.mpr (h.imp ?_)
  intro f g less eq
  exact String.lt_irrefl _ (eq ▸ less)

/-- Of the values under a name, sorting keeps the last. -/
theorem lookup_sortNamed (name : String) (fields : List (String × α)) :
    lookupNamed name (sortNamed fields) = lookupNamed name fields.reverse := by
  suffices step : ∀ acc : List (String × α),
      lookupNamed name (fields.foldl (fun sorted f => insertNamed f.1 f.2 sorted) acc) =
        (lookupNamed name fields.reverse).or (lookupNamed name acc) by
    rw [sortNamed, step, lookupNamed_nil, Option.or_none]
  induction fields with
  | nil => exact fun _ => rfl
  | cons f rest ih =>
    intro acc
    rw [List.foldl_cons, ih, lookup_insertNamed, List.reverse_cons, lookupNamed_append]
    by_cases h : f.1 = name <;> simp [lookupNamed_cons, lookupNamed_nil, h]

/-- Ascending names are known by the value of each name. -/
theorem eq_of_lookupNamed {fields others : List (String × α)} (h : Ascending fields)
    (h' : Ascending others) (same : ∀ name, lookupNamed name fields = lookupNamed name others) :
    fields = others := by
  have nodup {fields : List (String × α)} (h : Ascending fields) : fields.Nodup := by
    refine h.imp ?_
    intro f g less eq
    exact String.lt_irrefl _ (eq ▸ less)
  have perm : fields.Perm others := by
    refine (List.perm_ext_iff_of_nodup (nodup h) (nodup h')).mpr fun f => ?_
    rw [← lookupNamed_eq_some_iff_mem (nodup_names_of_ascending h), same,
      lookupNamed_eq_some_iff_mem (nodup_names_of_ascending h')]
  exact perm.eq_of_pairwise
    (fun f g _ _ less more => absurd (String.lt_trans less more) (String.lt_irrefl _)) h h'

/-- Values under names that differ are sorted alike in every order. -/
theorem sortNamed_of_perm {fields sorted : List (String × α)} (perm : fields.Perm sorted)
    (h : Ascending sorted) : sortNamed fields = sorted := by
  have once := nodup_names_of_ascending h
  have once' : (fields.reverse.map Prod.fst).Nodup :=
    (((List.reverse_perm fields).trans perm).map Prod.fst).nodup_iff.mpr once
  refine eq_of_lookupNamed (pairwise_sortNamed fields) h fun name => Option.ext fun value => ?_
  rw [lookup_sortNamed, lookupNamed_eq_some_iff_mem once', lookupNamed_eq_some_iff_mem once,
    List.mem_reverse, perm.mem_iff]

theorem mem_names_sortNamed {name : String} {fields : List (String × α)} :
    name ∈ (sortNamed fields).map Prod.fst ↔ name ∈ fields.map Prod.fst := by
  rw [← Decidable.not_iff_not, ← lookupNamed_eq_none_iff, lookup_sortNamed,
    lookupNamed_eq_none_iff, List.map_reverse, List.mem_reverse]

/-- Of a name that is there once, the first value is the last. -/
theorem lookupNamed_reverse {name : String} {fields : List (String × α)}
    (once : (fields.map Prod.fst).count name ≤ 1) :
    lookupNamed name fields.reverse = lookupNamed name fields := by
  induction fields with
  | nil => rfl
  | cons f rest ih =>
    obtain ⟨n, v⟩ := f
    rw [List.reverse_cons, lookupNamed_append]
    rw [List.map_cons, List.count_cons] at once
    by_cases h : n = name
    · have none : lookupNamed name rest.reverse = none := by
        rw [lookupNamed_eq_none_iff, List.map_reverse, List.mem_reverse, ← List.count_eq_zero]
        simp only [h, beq_self_eq_true, if_true] at once
        omega
      simp [lookupNamed_cons, h, none]
    · rw [ih (Nat.le_trans (Nat.le_add_right _ _) once)]
      simp [lookupNamed_cons, lookupNamed_nil, h]

end JobQueue
