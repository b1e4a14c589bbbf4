import ApiBindings.Proofs.Declarations.Conflict
import ApiBindings.Proofs.Declarations.Growth

/-!
# Registering again

A table knows a type if a walk past the type declares nothing. Every named type that such a walk
comes to is declared, and it refers back or has the definition that is declared (`Knows`). What lies
below a known name does not matter, so a type stays known while the table grows (`Knows.extends`).

A walk without replacing knows every type that it has visited: a type without a name once the types
that it makes way for are known, and a declared type at once (`Advances.knows`). So a walk that goes
through leaves a table that knows all it was given, and registering it again changes nothing.
-/

namespace ApiBindings.Declarations

open Relation

/-- A walk past the type declares nothing: its name is declared and it refers back or has the
definition that is declared, or it has no name and the table knows its parts. -/
inductive Knows (d : Declarations) : Ty → Prop
  | named {ty earlier name} (hn : ty.name? = some name) (he : d.get? name = some earlier)
    (hd : ty.isStub ∨ earlier.definition = ty.definition) : Knows d ty
  | unnamed {ty} (hn : ty.name? = none) (h : ∀ part ∈ ty.children, Knows d part) : Knows d ty

section Knows

variable {replace : Bool} {d table : Declarations} {ty : Ty} {tys : List Ty} {p q : Progress}
  {w : Walk}

theorem Knows.extends (h : Knows d ty) (htable : Extends false d table) : Knows table ty := by
  induction h with
  | named hn he hd => exact .named hn (htable.kept rfl _ _ he) hd
  | unnamed hn _ ih => exact .unnamed hn ih

/-! ## Walks past known types -/

theorem steps_past_all (h : ∀ ty ∈ tys, ∀ rest,
    ReflTransGen (Advances replace) ⟨ty :: rest, d⟩ ⟨rest, d⟩) (rest : List Ty) :
    ReflTransGen (Advances replace) ⟨tys ++ rest, d⟩ ⟨rest, d⟩ := by
  induction tys with
  | nil => exact .refl
  | cons ty tys ih =>
    rw [List.forall_mem_cons] at h
    exact (h.1 (tys ++ rest)).trans (ih h.2)

/-- A walk comes past a known type and leaves the table as it is. -/
theorem Knows.steps (h : Knows d ty) (replace : Bool) : ∀ rest : List Ty,
    ReflTransGen (Advances replace) ⟨ty :: rest, d⟩ ⟨rest, d⟩ := by
  induction h with
  | named hn he hd => exact fun rest => .single (.pass hn (meet_of_earlier he hd))
  | unnamed hn _ ih => exact fun rest => .head (.enter hn) (steps_past_all ih rest)

theorem register_of_knows (h : Knows d ty) (replace : Bool) :
    register replace ty d = ⟨d, none⟩ :=
  (ends_register replace ty [] d).eq_of_steps (h.steps replace [])

theorem registerAll_of_knows (h : ∀ ty ∈ tys, Knows d ty) (replace : Bool) :
    registerAll replace tys d = ⟨d, none⟩ := by
  have hsteps := steps_past_all (fun ty hty => (h ty hty).steps replace) []
  rw [List.append_nil] at hsteps
  exact (ends_registerAll replace tys d).eq_of_steps hsteps

/-! ## What a walk leaves known -/

/-- If what is pending after a step comes to be known, so does what is pending before it. -/
theorem Advances.knows (h : Advances false p q) (htable : Extends false q.table table)
    (hq : ∀ ty ∈ q.pending, Knows table ty) : ∀ ty ∈ p.pending, Knows table ty := by
  cases h with
  | enter hn =>
    obtain ⟨hparts, hrest⟩ := List.forall_mem_append.1 hq
    exact List.forall_mem_cons.2 ⟨.unnamed hn hparts, hrest⟩
  | pass hn hm =>
    obtain ⟨earlier, he, hd⟩ := meet_known hm
    exact List.forall_mem_cons.2 ⟨(Knows.named hn he hd).extends htable, hq⟩
  | declare hn hm =>
    obtain ⟨rfl, -⟩ := meet_declared hm
    exact List.forall_mem_cons.2
      ⟨(Knows.named hn get?_declare_self (.inr rfl)).extends htable, (List.forall_mem_append.1 hq).2⟩

theorem knows_of_steps (h : ReflTransGen (Advances false) p q)
    (hq : ∀ ty ∈ q.pending, Knows q.table ty) : ∀ ty ∈ p.pending, Knows q.table ty := by
  induction h using ReflTransGen.head_induction_on with
  | refl => exact hq
  | head step h ih => exact step.knows (extends_of_steps h) ih

theorem knows_of_ends (h : Ends false p [] w) (hw : w.conflict = none) :
    ∀ ty ∈ p.pending, Knows w.table ty :=
  knows_of_steps (h.steps hw) (by simp)

theorem registerAll_append (replace : Bool) (tys more : List Ty) (d : Declarations) :
    registerAll replace (tys ++ more) d =
      (registerAll replace tys d).andThen (registerAll replace more) := by
  induction tys generalizing d with
  | nil => rfl
  | cons ty tys ih =>
    rw [List.cons_append, registerAll, registerAll]
    unfold Walk.andThen
    cases hw : (register replace ty d).conflict with
    | none => exact ih _
    | some name => simp [hw]

end Knows

end ApiBindings.Declarations

namespace ApiBindings.Registry

open Declarations

variable {r : Registry} {ty : Ty}

theorem conflict_eq_none_of_register (h : (r.register ty).2 = .ok ()) :
    (Declarations.register r.replace ty r.declarations).conflict = none := by
  simp only [register, Walk.toExcept] at h
  split at h
  · assumption
  · cases h

theorem register_of_knows (h : Knows r.declarations ty) : r.register ty = (r, .ok ()) := by
  unfold register
  rw [Declarations.register_of_knows h]
  rfl

/-- Registering types without replacing extends the table, whether they conflict or not. -/
theorem extends_after (hr : r.replace = false) (tys : List Ty) :
    Extends false r.declarations (r.after (tys.map .register)).declarations := by
  induction tys generalizing r with
  | nil => exact .refl _ _
  | cons ty tys ih =>
    have hstep := extends_perform r (.register ty)
    rw [hr] at hstep
    exact hstep.trans (ih (r := (r.perform (.register ty)).1) hr)

/-- **Registering again changes nothing.** A type that has been registered without replacing can be
registered again, at once or after any further types, and leaves the registry as it is. Routes that
are given twice declare what they declare once. -/
theorem registering_again_changes_nothing :
    (∀ (r last : Registry) (ty : Ty) (later : List Ty), r.replace = false →
      (r.register ty).2 = .ok () → last = (r.register ty).1.after (later.map .register) →
        last.register ty = (last, .ok ())) ∧
    ∀ (routes : List Route) (d : Declarations),
      ofRoutes false routes = .ok d → ofRoutes false (routes ++ routes) = .ok d := by
  constructor
  · rintro r _ ty later hr hty rfl
    have hw := conflict_eq_none_of_register hty
    have ends := ends_register r.replace ty [] r.declarations
    rw [hr] at hw ends
    have hknown : Knows (r.register ty).1.declarations ty := by
      unfold register
      rw [hr]
      exact knows_of_ends ends hw ty List.mem_cons_self
    exact register_of_knows (hknown.extends (extends_after (r := (r.register ty).1) hr later))
  · intro routes d h
    have hall := ofRoutes_ok h
    have hknown := knows_of_ends (ends_registerAll false (routes.flatMap Route.types) empty)
      (by rw [hall])
    rw [hall] at hknown
    rw [ofRoutes, List.flatMap_append, registerAll_append, hall]
    show (registerAll false _ d).toExcept = _
    rw [registerAll_of_knows hknown]
    rfl

/-- Users under keys, which are given by their name only. -/
def usersByKey : Ty := .map (.record "Key" []) (.array (userOf .string))

/-- The users under their keys are registered again after another type, and the routes of a box and
its tag are given twice. -/
theorem users_registered_again :
    (∃ last : Registry,
      last = (((⟨empty, false⟩ : Registry).after [.register (keyOf .string)]).register
        usersByKey).1.after [.register (.union "Kind" ["a"])] ∧
      last.declarations.names = ["Key", "User", "Role", "Kind"] ∧
      last.register usersByKey = (last, .ok ())) ∧
    ofRoutes false ([swapOf (boxOf .string) (tagOf .string)] ++
      [swapOf (boxOf .string) (tagOf .string)]) =
        .ok ⟨[("Box", boxOf .string), ("Tag", tagOf .string)]⟩ := by
  obtain ⟨types, routes⟩ := registering_again_changes_nothing
  refine ⟨⟨_, rfl, rfl, ?_⟩, ?_⟩
  · exact types ((⟨empty, false⟩ : Registry).after [.register (keyOf .string)]) _ usersByKey
      [.union "Kind" ["a"]] rfl rfl rfl
  · exact routes [swapOf (boxOf .string) (tagOf .string)]
      ⟨[("Box", boxOf .string), ("Tag", tagOf .string)]⟩ rfl

end ApiBindings.Registry
