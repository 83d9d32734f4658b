import JobQueue.Pool.Worker

/-!
# Registrations

A worker has the handlers that were registered for it, and for each tag that is the
first one that came (`Worker.resolve_registering`).  Later ones of the tag are refused,
as if nobody had come with them (`Worker.registering_drop`).
-/

namespace JobQueue

variable {η : Type}

namespace Worker

variable {w : Worker η} {kind : JobKind} {handler : η}

/-- The worker after somebody comes with handlers, one after the other. -/
def registering (w : Worker η) (routes : List (JobKind × η)) : Worker η :=
  routes.foldl (fun w route => (w.register route.1 route.2).toOption.getD w) w

theorem registering_append (w : Worker η) (routes more : List (JobKind × η)) :
    w.registering (routes ++ more) = (w.registering routes).registering more :=
  List.foldl_append

theorem register_of_taken (taken : w.registry.isRegistered kind.tag) (handler : η) :
    w.register kind handler = .error (.duplicateType kind.tag) := by
  rw [register, Registry.register, if_pos taken]
  rfl

theorem register_of_free (free : w.registry.isRegistered kind.tag = false) (handler : η) :
    w.register kind handler =
      .ok { w with registry := { routes := w.registry.routes ++ [(kind, handler)] } } := by
  rw [register, Registry.register, if_neg (by simp [free])]
  rfl

/-- One registration adds a handler for its tag, if there is none. -/
theorem resolve_registering_one (w : Worker η) (kind : JobKind) (handler : η) (tag : String) :
    (w.registering [(kind, handler)]).registry.resolve tag =
      (w.registry.resolve tag).or (if kind.tag = tag then some (kind, handler) else none) := by
  show ((w.register kind handler).toOption.getD w).registry.resolve tag = _
  cases isSo : w.registry.isRegistered kind.tag with
  | true =>
    rw [register_of_taken isSo]
    obtain ⟨route, resolved⟩ := Option.isSome_iff_exists.mp isSo
    show w.registry.resolve tag = _
    by_cases same : kind.tag = tag
    · rw [← same, resolved]
      rfl
    · rw [if_neg same, Option.or_none]
  | false =>
    rw [register_of_free isSo]
    show List.find? _ (w.registry.routes ++ [(kind, handler)]) = _
    rw [List.find?_append, List.find?_singleton]
    simp only [decide_eq_true_eq]
    rfl

/-- A tag gets the first handler that comes for it. -/
theorem resolve_registering (w : Worker η) (routes : List (JobKind × η)) (tag : String) :
    (w.registering routes).registry.resolve tag =
      (w.registry.resolve tag).or (routes.find? fun route => route.1.tag = tag) := by
  induction routes generalizing w with
  | nil => exact Option.or_none.symm
  | cons route routes ih =>
    rw [← List.singleton_append, registering_append, ih, resolve_registering_one, List.find?_append,
      List.find?_singleton, Option.or_assoc]
    simp only [decide_eq_true_eq]

/-- Nobody who comes changes how the worker reads, or what it runs with. -/
theorem registering_keeps (w : Worker η) (routes : List (JobKind × η)) :
    (w.registering routes).codec = w.codec ∧ (w.registering routes).settings = w.settings := by
  induction routes generalizing w with
  | nil => exact ⟨rfl, rfl⟩
  | cons route routes ih =>
    obtain ⟨kind, handler⟩ := route
    obtain ⟨codec, settings⟩ := ih ((w.register kind handler).toOption.getD w)
    have same : ((w.register kind handler).toOption.getD w).codec = w.codec ∧
        ((w.register kind handler).toOption.getD w).settings = w.settings := by
      cases isSo : w.registry.isRegistered kind.tag with
      | true =>
        rw [register_of_taken isSo]
        exact ⟨rfl, rfl⟩
      | false =>
        rw [register_of_free isSo]
        exact ⟨rfl, rfl⟩
    exact ⟨codec.trans same.1, settings.trans same.2⟩

/-- Who comes with a handler for a tag that has one is refused, and it is as if nobody had
come. -/
theorem registering_drop {before after : List (JobKind × η)} {route earlier : JobKind × η}
    (mem : earlier ∈ before) (same : earlier.1.tag = route.1.tag) (w : Worker η) :
    (w.registering before).register route.1 route.2 = .error (.duplicateType route.1.tag) ∧
      w.registering (before ++ route :: after) = w.registering (before ++ after) := by
  have some : (before.find? fun r => r.1.tag = route.1.tag).isSome := by
    rw [List.find?_isSome]
    exact ⟨earlier, mem, by simpa using same⟩
  have taken : (w.registering before).registry.isRegistered route.1.tag := by
    rw [Registry.isRegistered, resolve_registering, Option.isSome_or, some, Bool.or_true]
  have refused := register_of_taken taken route.2
  refine ⟨refused, ?_⟩
  rw [registering_append, registering_append]
  show (((w.registering before).register route.1 route.2).toOption.getD _).registering after = _
  rw [refused]
  rfl

end Worker

end JobQueue
