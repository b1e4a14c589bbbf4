import ApiBindings.Proofs.Declarations.Walk
import Mathlib.Data.List.Infix

/-!
# Tables grow at the end

A registry is given types to register while the rule about replacing changes, and a conflict may
stop a registration half-way. Every type is declared once, under its own name (`Labelled`), and the
writes of an action only extend the table (`Extends`): names are added at its end, and a type that
is declared stays what it is unless types may be replaced, and then no reference back takes its
place.

A write does both (`Advances.extends`, `Advances.labelled`), and so does a walk, also where a
conflict stops it (`Ends.reaches`).
-/

namespace ApiBindings.Declarations

open Relation

/-- Every type is declared once, under its own name. -/
structure Labelled (d : Declarations) : Prop where
  nodup : d.names.Nodup
  own : ∀ e ∈ d.entries, e.2.name? = some e.1

/-- A table comes of another one by writes under a rule about replacing. -/
structure Extends (replace : Bool) (d table : Declarations) : Prop where
  names : d.names <+: table.names
  kept : replace = false → ∀ name ty, d.get? name = some ty → table.get? name = some ty
  replaced : replace = true → ∀ name earlier later, d.get? name = some earlier →
    table.get? name = some later → later = earlier ∨ ¬ later.isStub

section Writes

variable {replace : Bool} {d table last : Declarations} {name : String} {ty : Ty}

theorem labelled_empty : empty.Labelled where
  nodup := List.nodup_nil
  own e he := by cases he

theorem Labelled.declare (h : d.Labelled) (hn : ty.name? = some name) :
    (d.declare name ty).Labelled where
  nodup := nodup_names_declare h.nodup
  own e he := by
    rcases eq_or_mem_of_mem_declare he with rfl | he
    · exact hn
    · exact h.own e he

theorem names_prefix_declare : d.names <+: (d.declare name ty).names := by
  unfold names declare Table.put
  by_cases hn : name ∈ Table.keys d.entries
  · rw [Table.keys_update_of_mem _ hn]
  · rw [Table.keys_update_of_not_mem _ hn]
    exact List.prefix_append _ _

namespace Extends

theorem refl (replace : Bool) (d : Declarations) : Extends replace d d where
  names := List.prefix_refl _
  kept _ _ _ h := h
  replaced _ _ _ _ he hl := .inl (Option.some.inj (hl.symm.trans he))

theorem trans (h : Extends replace d table) (h' : Extends replace table last) :
    Extends replace d last where
  names := h.names.trans h'.names
  kept hr name ty hty := h'.kept hr name ty (h.kept hr name ty hty)
  replaced hr name earlier later he hl := by
    obtain ⟨between, hb⟩ := mem_names_iff.1 (h.names.subset (mem_names_of_get? he))
    rcases h'.replaced hr name between later hb hl with rfl | hs
    · exact h.replaced hr name earlier later he hb
    · exact .inr hs

end Extends

theorem extends_of_declared (hm : meet replace name ty d = .declared table) :
    Extends replace d table := by
  obtain ⟨rfl, hr⟩ := meet_declared hm
  refine ⟨names_prefix_declare, fun hreplace other declared hg => ?_, ?_⟩
  · -- a name that is there is not written, since nothing may be replaced
    have hne : other ≠ name := by
      rintro rfl
      have := (hr declared hg).1
      rw [hreplace] at this
      cases this
    rwa [get?_declare_of_ne hne]
  · intro _ other earlier later he hl
    rw [get?_declare] at hl
    split_ifs at hl with ho
    · cases hl
      exact .inr (hr earlier (ho ▸ he)).2.1
    · exact .inl (Option.some.inj (hl.symm.trans he))

end Writes

/-! ## Walks -/

section Walks

variable {replace : Bool} {p q : Progress} {rest : List Ty} {w : Walk}

theorem Advances.extends (h : Advances replace p q) : Extends replace p.table q.table := by
  cases h with
  | enter hn => exact .refl _ _
  | pass hn hm => exact .refl _ _
  | declare hn hm => exact extends_of_declared hm

theorem Advances.labelled (h : Advances replace p q) (hp : p.table.Labelled) : q.table.Labelled := by
  cases h with
  | enter hn => exact hp
  | pass hn hm => exact hp
  | declare hn hm =>
    obtain ⟨rfl, -⟩ := meet_declared hm
    exact hp.declare hn

theorem extends_of_steps (h : ReflTransGen (Advances replace) p q) :
    Extends replace p.table q.table := by
  induction h with
  | refl => exact .refl _ _
  | tail _ step ih => exact ih.trans step.extends

/-- A walk leaves the table that its steps have come to, also where a conflict stops it. -/
theorem Ends.reaches (h : Ends replace p rest w) :
    ∃ pending, ReflTransGen (Advances replace) p ⟨pending, w.table⟩ := by
  cases h with
  | done h => exact ⟨rest, h⟩
  | @stopped ty later d name h hn hm => exact ⟨ty :: later, h⟩

end Walks

end ApiBindings.Declarations

/-! ## Registries -/

namespace ApiBindings.Registry

open Declarations Relation

/-- The registry after some actions, whether they go through or not. -/
def after (r : Registry) (actions : List Action) : Registry :=
  actions.foldl (fun r action => (r.perform action).1) r

section Actions

variable {r : Registry} {action : Action}

theorem steps_of_register (r : Registry) (ty : Ty) :
    ∃ pending, ReflTransGen (Advances r.replace) ⟨[ty], r.declarations⟩
      ⟨pending, (r.perform (.register ty)).1.declarations⟩ :=
  (ends_register r.replace ty [] r.declarations).reaches

theorem extends_perform (r : Registry) (action : Action) :
    Extends r.replace r.declarations (r.perform action).1.declarations := by
  cases action with
  | setReplace replace => exact .refl _ _
  | register ty =>
    obtain ⟨pending, h⟩ := steps_of_register r ty
    exact extends_of_steps h

theorem labelled_perform (h : r.declarations.Labelled) (action : Action) :
    (r.perform action).1.declarations.Labelled := by
  cases action with
  | setReplace replace => exact h
  | register ty =>
    obtain ⟨pending, hsteps⟩ := steps_of_register r ty
    exact invariant_of_steps Advances.labelled hsteps h

theorem labelled_after (h : r.declarations.Labelled) (actions : List Action) :
    (r.after actions).declarations.Labelled := by
  induction actions generalizing r with
  | nil => exact h
  | cons action actions ih => exact ih (labelled_perform h action)

end Actions

/-- **Tables grow at the end.** After any actions on an empty registry, of which conflicts may have
stopped some half-way, every type is declared once and under its own name. Any further action, and
every single step of it, extends the table by the rule about replacing that holds then. -/
theorem table_grows_at_end (replace : Bool) (actions : List Action) :
    ((⟨empty, replace⟩ : Registry).after actions).declarations.Labelled ∧
    ∀ r : Registry, r = (⟨empty, replace⟩ : Registry).after actions →
      (∀ action, Extends r.replace r.declarations (r.perform action).1.declarations) ∧
      ∀ ty p q, ReflTransGen (Advances r.replace) ⟨[ty], r.declarations⟩ p →
        Advances r.replace p q → q.table.Labelled ∧ Extends r.replace p.table q.table := by
  have labelled := labelled_after (r := ⟨empty, replace⟩) labelled_empty actions
  refine ⟨labelled, ?_⟩
  rintro r rfl
  refine ⟨extends_perform _, fun ty p q hp hstep => ⟨?_, hstep.extends⟩⟩
  have hlabelled := invariant_of_steps Advances.labelled hp labelled
  exact hstep.labelled hlabelled

/-- A record with an identifier of the given type. -/
def keyOf (id : Primitive) : Ty := .record "Key" [⟨"id", none, .primitive id, false⟩]

/-- A record with a union and a key. -/
def userOf (id : Primitive) : Ty :=
  .record "User" [⟨"role", none, .union "Role" ["admin"], false⟩, ⟨"key", none, keyOf id, false⟩]

/-- A conflict inside a record stops a registration when two more names have been added. -/
theorem names_grow_before_conflict :
    ∃ r : Registry, r = (⟨empty, false⟩ : Registry).after [.register (keyOf .string)] ∧
      r.declarations.names = ["Key"] ∧
      (r.perform (.register (userOf .integer))).2 = .error (.conflictingType "Key") ∧
      (r.perform (.register (userOf .integer))).1.declarations.names = ["Key", "User", "Role"] ∧
      Extends false r.declarations (r.perform (.register (userOf .integer))).1.declarations := by
  obtain ⟨-, grows⟩ := table_grows_at_end false [.register (keyOf .string)]
  exact ⟨_, rfl, rfl, rfl, rfl, (grows _ rfl).1 (.register (userOf .integer))⟩

end ApiBindings.Registry
