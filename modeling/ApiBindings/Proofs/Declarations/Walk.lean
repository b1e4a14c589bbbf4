import ApiBindings.Declarations
import Mathlib.Logic.Relation
import Mathlib.Tactic.SplitIfs

/-!
# Walks in steps

Registering is a walk along a list of types that are yet to be visited. A step visits the first of
them. A type without a name makes way for its children, a type that is known is passed by, and a
type that is declared makes way for its children as well. The walk ends when no type is left, or
stops in front of a type that conflicts.

A step follows from the first pending type, so a walk has one end only (`Ends.eq_of_steps`). What
every step preserves holds where a walk ends (`Ends.invariant`), also where a conflict stops it
(`Ends.invariant_of_conflict`).
-/

namespace ApiBindings.Declarations

open Relation

/-! ## The table -/

section Table

variable {d : Declarations} {name other : String} {ty : Ty}

@[simp] theorem get?_empty : empty.get? name = none := rfl

@[simp] theorem get?_declare_self : (d.declare name ty).get? name = some ty :=
  Table.lookup_update_self name _ d.entries

theorem get?_declare_of_ne (h : other ≠ name) : (d.declare name ty).get? other = d.get? other :=
  Table.lookup_update_of_ne _ d.entries h

theorem get?_declare : (d.declare name ty).get? other =
    if other = name then some ty else d.get? other := by
  split_ifs with h
  · rw [h, get?_declare_self]
  · exact get?_declare_of_ne h

theorem mem_names_iff : name ∈ d.names ↔ ∃ ty, d.get? name = some ty := by
  rw [← Option.isSome_iff_exists, get?, List.lookup_isSome_iff]
  simp [names, Table.keys]

theorem mem_names_of_get? (h : d.get? name = some ty) : name ∈ d.names := mem_names_iff.2 ⟨ty, h⟩

theorem mem_names_declare : other ∈ (d.declare name ty).names ↔ other = name ∨ other ∈ d.names := by
  rw [mem_names_iff, mem_names_iff, get?_declare]
  split_ifs with h <;> simp [h]

theorem names_subset_declare : d.names ⊆ (d.declare name ty).names :=
  fun _ h => mem_names_declare.2 (.inr h)

theorem nodup_names_declare (h : d.names.Nodup) : (d.declare name ty).names.Nodup := by
  unfold names declare Table.put at *
  by_cases hn : name ∈ Table.keys d.entries
  · rwa [Table.keys_update_of_mem _ hn]
  · rw [Table.keys_update_of_not_mem _ hn, List.nodup_append]
    refine ⟨h, by simp, fun other ho last hl => ?_⟩
    obtain rfl := List.mem_singleton.1 hl
    exact fun he => hn (he ▸ ho)

theorem eq_or_mem_of_mem_declare {e : String × Ty} (h : e ∈ (d.declare name ty).entries) :
    e = (name, ty) ∨ e ∈ d.entries := Table.eq_or_mem_of_mem_put h

end Table

/-! ## What becomes of a named type -/

section Meet

variable {replace : Bool} {name : String} {ty : Ty} {d table : Declarations}

theorem meet_known (h : meet replace name ty d = .known) :
    ∃ earlier, d.get? name = some earlier ∧ (ty.isStub ∨ earlier.definition = ty.definition) := by
  unfold meet at h
  split at h
  · cases h
  · rename_i earlier he
    refine ⟨earlier, he, ?_⟩
    split_ifs at h with hs hd
    · exact .inl hs
    · exact .inr hd

theorem meet_of_earlier {earlier : Ty} (he : d.get? name = some earlier)
    (hd : ty.isStub ∨ earlier.definition = ty.definition) : meet replace name ty d = .known := by
  unfold meet
  rw [he]
  rcases hd with hs | hd
  · simp [hs]
  · simp [hd]

theorem meet_declared (h : meet replace name ty d = .declared table) :
    table = d.declare name ty ∧
      ∀ earlier, d.get? name = some earlier →
        replace ∧ ¬ ty.isStub ∧ earlier.definition ≠ ty.definition := by
  unfold meet at h
  split at h
  · rename_i hn
    cases h
    exact ⟨rfl, fun earlier he => by rw [hn] at he; cases he⟩
  · rename_i earlier he
    split_ifs at h with hs hd hr
    cases h
    refine ⟨rfl, fun same hsame => ?_⟩
    rw [he] at hsame
    cases hsame
    exact ⟨hr, by simpa using hs, hd⟩

theorem meet_conflict (h : meet replace name ty d = .conflict) :
    ∃ earlier, d.get? name = some earlier ∧
      ¬ replace ∧ ¬ ty.isStub ∧ earlier.definition ≠ ty.definition := by
  unfold meet at h
  split at h
  · cases h
  · rename_i earlier he
    split_ifs at h with hs hd hr
    exact ⟨earlier, he, hr, by simpa using hs, hd⟩

end Meet

/-! ## Steps -/

/-- A walk under way: the types yet to be visited, and the table so far. -/
structure Progress where
  pending : List Ty
  table : Declarations

/-- A step of a walk visits the first of the pending types. -/
inductive Advances (replace : Bool) : Progress → Progress → Prop
  | enter {ty rest d} (hn : ty.name? = none) :
    Advances replace ⟨ty :: rest, d⟩ ⟨ty.children ++ rest, d⟩
  | pass {ty rest d name} (hn : ty.name? = some name) (hm : meet replace name ty d = .known) :
    Advances replace ⟨ty :: rest, d⟩ ⟨rest, d⟩
  | declare {ty rest d name table} (hn : ty.name? = some name)
    (hm : meet replace name ty d = .declared table) :
    Advances replace ⟨ty :: rest, d⟩ ⟨ty.children ++ rest, table⟩

/-- How a walk ends that has come past all but the given types: it has made its steps, or some
steps lead to a type that conflicts. -/
inductive Ends (replace : Bool) (p : Progress) (rest : List Ty) : Walk → Prop
  | done {d} (h : ReflTransGen (Advances replace) p ⟨rest, d⟩) : Ends replace p rest ⟨d, none⟩
  | stopped {ty later d name} (h : ReflTransGen (Advances replace) p ⟨ty :: later, d⟩)
    (hn : ty.name? = some name) (hm : meet replace name ty d = .conflict) :
    Ends replace p rest ⟨d, some name⟩

namespace Ends

variable {replace : Bool} {p q : Progress} {rest later : List Ty} {w : Walk}

theorem refl {d : Declarations} : Ends replace ⟨rest, d⟩ rest ⟨d, none⟩ := .done .refl

theorem trans (hp : ReflTransGen (Advances replace) p q) (hq : Ends replace q rest w) :
    Ends replace p rest w := by
  cases hq with
  | done h => exact .done (hp.trans h)
  | stopped h hn hm => exact .stopped (hp.trans h) hn hm

theorem head (hp : Advances replace p q) (hq : Ends replace q rest w) : Ends replace p rest w :=
  trans (.single hp) hq

theorem andThen {next : Declarations → Walk} (hw : Ends replace p rest w)
    (hn : ∀ d, Ends replace ⟨rest, d⟩ later (next d)) : Ends replace p later (w.andThen next) := by
  cases hw with
  | done h => exact trans h (hn _)
  | stopped h hn hm => exact .stopped h hn hm

end Ends

mutual

theorem ends_register (replace : Bool) : ∀ (ty : Ty) (rest : List Ty) (d : Declarations),
    Ends replace ⟨ty :: rest, d⟩ rest (register replace ty d)
  | .primitive _, _, _ => .head (.enter rfl) .refl
  | .array element, rest, d => by
    rw [register]
    exact .head (.enter rfl) (ends_register replace element rest d)
  | .map key value, rest, d => by
    rw [register]
    exact .head (.enter rfl) ((ends_register replace key (value :: rest) d).andThen
      fun d => ends_register replace value rest d)
  | .union name cases, rest, d => by
    rw [register]
    cases hm : meet replace name (.union name cases) d with
    | known => exact .head (.pass rfl hm) .refl
    | declared table => exact .head (.declare rfl hm) .refl
    | conflict => exact .stopped .refl rfl hm
  | .record name members, rest, d => by
    rw [register]
    cases hm : meet replace name (.record name members) d with
    | known => exact .head (.pass rfl hm) .refl
    | declared table =>
      exact .head (.declare rfl hm) (ends_registerMembers replace members rest table)
    | conflict => exact .stopped .refl rfl hm

theorem ends_registerMembers (replace : Bool) : ∀ (members : List Member) (rest : List Ty)
    (d : Declarations),
    Ends replace ⟨members.map (·.ty) ++ rest, d⟩ rest (registerMembers replace members d)
  | [], _, _ => .refl
  | ⟨_, _, ty, _⟩ :: members, rest, d => by
    rw [registerMembers]
    exact (ends_register replace ty (members.map (·.ty) ++ rest) d).andThen
      fun d => ends_registerMembers replace members rest d

end

theorem ends_registerAll (replace : Bool) : ∀ (tys : List Ty) (d : Declarations),
    Ends replace ⟨tys, d⟩ [] (registerAll replace tys d)
  | [], _ => .refl
  | ty :: tys, d => (ends_register replace ty tys d).andThen (ends_registerAll replace tys)

/-! ## Walks are determined -/

section Determined

variable {replace : Bool} {p q q' : Progress} {rest : List Ty} {w : Walk} {d : Declarations}

theorem Advances.unique (h : Advances replace p q) (h' : Advances replace p q') : q = q' := by
  cases h with
  | enter hn =>
    cases h' with
    | enter hn' => rfl
    | pass hn' hm' => cases hn.symm.trans hn'
    | declare hn' hm' => cases hn.symm.trans hn'
  | pass hn hm =>
    cases h' with
    | enter hn' => cases hn.symm.trans hn'
    | pass hn' hm' => rfl
    | declare hn' hm' =>
      cases hn.symm.trans hn'
      cases hm.symm.trans hm'
  | declare hn hm =>
    cases h' with
    | enter hn' => cases hn.symm.trans hn'
    | pass hn' hm' =>
      cases hn.symm.trans hn'
      cases hm.symm.trans hm'
    | declare hn' hm' =>
      cases hn.symm.trans hn'
      cases hm.symm.trans hm'
      rfl

theorem not_advances_done : ¬ Advances replace ⟨[], d⟩ q := nofun

theorem not_advances_of_conflict {ty : Ty} {name : String} (hn : ty.name? = some name)
    (hm : meet replace name ty d = .conflict) : ¬ Advances replace ⟨ty :: rest, d⟩ q := by
  intro h
  cases h with
  | enter hn' => cases hn.symm.trans hn'
  | pass hn' hm' =>
    cases hn.symm.trans hn'
    cases hm.symm.trans hm'
  | declare hn' hm' =>
    cases hn.symm.trans hn'
    cases hm.symm.trans hm'

/-- From a walk that goes through to the end, every step leads on to that end. -/
theorem Advances.on_way (h : Advances replace p q)
    (hd : ReflTransGen (Advances replace) p ⟨[], d⟩) :
    ReflTransGen (Advances replace) q ⟨[], d⟩ := by
  rcases hd.cases_head with rfl | ⟨next, hnext, hd⟩
  · exact (not_advances_done h).elim
  · rwa [h.unique hnext]

theorem steps_on_way (h : ReflTransGen (Advances replace) p q)
    (hd : ReflTransGen (Advances replace) p ⟨[], d⟩) :
    ReflTransGen (Advances replace) q ⟨[], d⟩ := by
  induction h with
  | refl => exact hd
  | tail _ step ih => exact step.on_way ih

/-- A walk whose steps come past all types ends there. -/
theorem Ends.eq_of_steps (h : Ends replace p [] w)
    (hd : ReflTransGen (Advances replace) p ⟨[], d⟩) : w = ⟨d, none⟩ := by
  cases h with
  | done h =>
    rcases (steps_on_way h hd).cases_head with he | ⟨next, hnext, -⟩
    · cases he
      rfl
    · exact (not_advances_done hnext).elim
  | stopped h hn hm =>
    rcases (steps_on_way h hd).cases_head with he | ⟨next, hnext, -⟩
    · cases he
    · exact (not_advances_of_conflict hn hm hnext).elim

theorem Ends.steps (h : Ends replace p rest w) (hw : w.conflict = none) :
    ReflTransGen (Advances replace) p ⟨rest, w.table⟩ := by
  cases h with
  | done h => exact h
  | stopped h hn hm => cases hw

end Determined

/-! ## Invariants -/

section Invariant

variable {replace : Bool} {Inv : Progress → Prop} {p q : Progress} {rest tys : List Ty} {w : Walk}

theorem invariant_of_steps (step : ∀ {p q}, Advances replace p q → Inv p → Inv q)
    (h : ReflTransGen (Advances replace) p q) (hp : Inv p) : Inv q := by
  induction h with
  | refl => exact hp
  | tail _ h ih => exact step h ih

/-- What every step preserves holds at the end of a walk that no conflict has stopped. -/
theorem Ends.invariant (step : ∀ {p q}, Advances replace p q → Inv p → Inv q)
    (h : Ends replace p rest w) (hw : w.conflict = none) (hp : Inv p) : Inv ⟨rest, w.table⟩ := by
  cases h with
  | done h => exact invariant_of_steps step h hp
  | stopped h hn hm => cases hw

/-- What every step preserves holds where a conflict stops a walk. -/
theorem Ends.invariant_of_conflict {name : String}
    (step : ∀ {p q}, Advances replace p q → Inv p → Inv q)
    (h : Ends replace p rest w) (hw : w.conflict = some name) (hp : Inv p) :
    ∃ ty later, Inv ⟨ty :: later, w.table⟩ ∧ ty.name? = some name ∧
      meet replace name ty w.table = .conflict := by
  cases h with
  | done h => cases hw
  | stopped h hn hm =>
    cases hw
    exact ⟨_, _, invariant_of_steps step h hp, hn, hm⟩

end Invariant

/-! ## Walks over the types of routes -/

section Routes

variable {replace : Bool} {routes : List Route} {d : Declarations} {name : String} {f : Fault}

theorem ofRoutes_ok (h : ofRoutes replace routes = .ok d) :
    registerAll replace (routes.flatMap Route.types) empty = ⟨d, none⟩ := by
  unfold ofRoutes Walk.toExcept at h
  split at h
  · rename_i hw
    cases h
    exact congrArg (Walk.mk _) hw
  · cases h

theorem ofRoutes_error (h : ofRoutes replace routes = .error f) :
    ∃ name, f = .conflictingType name ∧
      (registerAll replace (routes.flatMap Route.types) empty).conflict = some name := by
  unfold ofRoutes Walk.toExcept at h
  split at h
  · cases h
  · rename_i name hw
    cases h
    exact ⟨name, rfl, hw⟩

theorem nodup_names_of_ofRoutes (h : ofRoutes replace routes = .ok d) : d.names.Nodup := by
  have step : ∀ {p q}, Advances replace p q → p.table.names.Nodup → q.table.names.Nodup := by
    intro p q hstep hp
    cases hstep with
    | enter => exact hp
    | pass => exact hp
    | declare hn hm =>
      obtain ⟨rfl, -⟩ := meet_declared hm
      exact nodup_names_declare hp
  have hwalk := ends_registerAll replace (routes.flatMap Route.types) empty
  rw [ofRoutes_ok h] at hwalk
  exact hwalk.invariant step rfl .nil

/-- What holds of the types of routes, and with a type of those directly below it, holds of all
declared types. -/
theorem declared_of_hereditary {P : Ty → Prop} (below : ∀ ty, P ty → ∀ child ∈ ty.children, P child)
    (hroutes : ∀ ty ∈ routes.flatMap Route.types, P ty) (h : ofRoutes replace routes = .ok d) :
    ∀ e ∈ d.entries, P e.2 := by
  have step : ∀ {p q}, Advances replace p q →
      (∀ ty ∈ p.pending, P ty) ∧ (∀ e ∈ p.table.entries, P e.2) →
      (∀ ty ∈ q.pending, P ty) ∧ ∀ e ∈ q.table.entries, P e.2 := by
    rintro p q hstep ⟨hpending, htable⟩
    have hdown : ∀ {ty rest}, (∀ uy ∈ ty :: rest, P uy) → ∀ uy ∈ ty.children ++ rest, P uy := by
      intro ty rest hall uy hu
      rcases List.mem_append.1 hu with hu | hu
      · exact below ty (hall ty List.mem_cons_self) uy hu
      · exact hall uy (List.mem_cons_of_mem _ hu)
    cases hstep with
    | enter => exact ⟨hdown hpending, htable⟩
    | pass => exact ⟨fun ty ht => hpending ty (List.mem_cons_of_mem _ ht), htable⟩
    | declare hn hm =>
      obtain ⟨rfl, -⟩ := meet_declared hm
      refine ⟨hdown hpending, fun e he => ?_⟩
      rcases eq_or_mem_of_mem_declare he with rfl | he
      · exact hpending _ List.mem_cons_self
      · exact htable e he
  have hwalk := ends_registerAll replace (routes.flatMap Route.types) empty
  rw [ofRoutes_ok h] at hwalk
  exact (hwalk.invariant step rfl ⟨hroutes, nofun⟩).2

end Routes

end ApiBindings.Declarations

/-! ## Registries -/

namespace ApiBindings.Registry

/-- What can be done to a registry. -/
inductive Action where
  | register (ty : Ty)
  | setReplace (replace : Bool)

/-- The registry after an action, and whether the action has gone through. -/
def perform (r : Registry) : Action → Registry × Except Fault Unit
  | .register ty => r.register ty
  | .setReplace replace => (r.setReplace replace, .ok ())

/-- The registry after some actions, all of which go through. -/
def performAll (r : Registry) : List Action → Except Fault Registry
  | [] => .ok r
  | action :: actions =>
    match r.perform action with
    | (next, .ok ()) => next.performAll actions
    | (_, .error f) => .error f

/-- What holds after a walk that no conflict stops holds after any actions that go through. -/
theorem invariant_of_performAll {P : Declarations → Prop}
    (walk : ∀ {replace ty d}, (Declarations.register replace ty d).conflict = none → P d →
      P (Declarations.register replace ty d).table) {actions : List Action} {r last : Registry}
    (h : r.performAll actions = .ok last) (hr : P r.declarations) : P last.declarations := by
  induction actions generalizing r with
  | nil =>
    cases h
    exact hr
  | cons action actions ih =>
    rw [performAll] at h
    split at h
    · rename_i next hp
      refine ih h ?_
      cases action with
      | setReplace replace =>
        cases hp
        exact hr
      | register ty =>
        simp only [perform, register, Declarations.Walk.toExcept, Prod.mk.injEq] at hp
        obtain ⟨rfl, hc⟩ := hp
        split at hc
        · rename_i hw
          exact walk hw hr
        · cases hc
    · cases h

end ApiBindings.Registry
