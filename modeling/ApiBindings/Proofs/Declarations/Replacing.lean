import ApiBindings.Proofs.Declarations.Conflict
import ApiBindings.Proofs.Declarations.Growth

/-!
# Replacing is conservative

A walk that may replace goes in step with one that may not until the latter meets a conflict
(`Advances.may_replace`). At the conflict it overwrites a declaration (`overwrites_of_conflict`),
and it overwrites none while the two go in step. So a walk without replacing fails exactly if the
walk with replacing overwrites some declaration, and where it goes through both come to the same
table.
-/

namespace ApiBindings.Declarations

open Relation

/-- A step overwrites a declaration: some name is declared before it, and not as the same type after
it. -/
def Overwrites (p q : Progress) : Prop :=
  ∃ name earlier, p.table.get? name = some earlier ∧ q.table.get? name ≠ some earlier

section Steps

variable {replace : Bool} {p q : Progress} {d : Declarations} {name : String} {ty : Ty}

theorem meet_replace_eq (h : meet false name ty d ≠ .conflict) :
    meet replace name ty d = meet false name ty d := by
  unfold meet at h ⊢
  split
  · rfl
  · rename_i earlier he
    rw [he] at h
    by_cases hs : ty.isStub
    · simp [hs]
    · by_cases hd : earlier.definition = ty.definition
      · simp [hd]
      · exact absurd (by simp [hs, hd]) h

/-- Where no type may be replaced, a walk makes the steps that it makes where types may be
replaced. -/
theorem Advances.may_replace (h : Advances false p q) : Advances replace p q := by
  cases h with
  | enter hn => exact .enter hn
  | pass hn hm => exact .pass hn (by rw [meet_replace_eq (by rw [hm]; nofun), hm])
  | declare hn hm => exact .declare hn (by rw [meet_replace_eq (by rw [hm]; nofun), hm])

theorem steps_may_replace (h : ReflTransGen (Advances false) p q) :
    ReflTransGen (Advances replace) p q :=
  ReflTransGen.mono (fun _ _ => Advances.may_replace) _ _ h

theorem Advances.not_overwrites (h : Advances false p q) : ¬ Overwrites p q := by
  rintro ⟨name, earlier, he, hq⟩
  exact hq (h.extends.kept rfl name earlier he)

/-- Where a conflict comes up, a walk that may replace overwrites what is declared. -/
theorem overwrites_of_conflict (hn : ty.name? = some name) (hm : meet false name ty d = .conflict)
    (rest : List Ty) :
    ∃ q, Advances true ⟨ty :: rest, d⟩ q ∧ Overwrites ⟨ty :: rest, d⟩ q := by
  obtain ⟨earlier, he, -, hs, hd⟩ := meet_conflict hm
  have hdeclared : meet true name ty d = .declared (d.declare name ty) := by
    unfold meet
    rw [he]
    simp [hs, hd]
  refine ⟨_, .declare hn hdeclared, name, earlier, he, ?_⟩
  rw [get?_declare_self]
  intro h
  exact hd (congrArg Ty.definition (Option.some.inj h)).symm

theorem meet_true_ne_conflict : meet true name ty d ≠ .conflict := by
  intro h
  obtain ⟨_, -, hr, -⟩ := meet_conflict h
  exact hr rfl

/-- While a walk without replacing goes through, a walk that may replace makes its steps. -/
theorem Advances.without_replacing (h : Advances true p q)
    (hd : ReflTransGen (Advances false) p ⟨[], d⟩) :
    Advances false p q ∧ ReflTransGen (Advances false) q ⟨[], d⟩ := by
  rcases hd.cases_head with rfl | ⟨next, hnext, hd⟩
  · exact (not_advances_done h).elim
  · rw [h.unique hnext.may_replace]
    exact ⟨hnext, hd⟩

theorem steps_without_replacing (h : ReflTransGen (Advances true) p q)
    (hd : ReflTransGen (Advances false) p ⟨[], d⟩) :
    ReflTransGen (Advances false) q ⟨[], d⟩ := by
  induction h with
  | refl => exact hd
  | tail _ step ih => exact (step.without_replacing ih).2

end Steps

/-! ## Whole walks -/

section Routes

variable {routes : List Route} {d : Declarations} {p q : Progress}

/-- The start of a walk over the types of routes. -/
def start (routes : List Route) : Progress := ⟨routes.flatMap Route.types, empty⟩

theorem steps_of_ofRoutes {replace : Bool} (h : ofRoutes replace routes = .ok d) :
    ReflTransGen (Advances replace) (start routes) ⟨[], d⟩ := by
  have ends := ends_registerAll replace (routes.flatMap Route.types) empty
  rw [ofRoutes_ok h] at ends
  exact ends.steps rfl

theorem ofRoutes_of_steps {replace : Bool}
    (h : ReflTransGen (Advances replace) (start routes) ⟨[], d⟩) :
    ofRoutes replace routes = .ok d := by
  rw [ofRoutes, (ends_registerAll replace (routes.flatMap Route.types) empty).eq_of_steps h]
  rfl

theorem ofRoutes_true_ok (routes : List Route) : ∃ d, ofRoutes true routes = .ok d := by
  cases h : ofRoutes true routes with
  | ok d => exact ⟨d, rfl⟩
  | error f =>
    obtain ⟨name, -, hc⟩ := ofRoutes_error h
    have always : ∀ {p q}, Advances true p q → True → True := fun _ _ => trivial
    obtain ⟨ty, later, -, -, hm⟩ :=
      (ends_registerAll true (routes.flatMap Route.types) empty).invariant_of_conflict
        always hc trivial
    exact (meet_true_ne_conflict hm).elim

/-- **Replacing is conservative.** Where types may be replaced, the types of routes are always
declared. If they are declared where no type may be replaced, the table is the same. They are not
declared there exactly if the walk with replacing overwrites a declaration at some step. -/
theorem replacing_is_conservative (routes : List Route) :
    (∀ d, ofRoutes false routes = .ok d → ofRoutes true routes = .ok d) ∧
    ((∃ f, ofRoutes false routes = .error f) ↔
      ∃ p q, ReflTransGen (Advances true) (start routes) p ∧ Advances true p q ∧
        Overwrites p q) ∧
    ∃ d, ofRoutes true routes = .ok d ∧
      ReflTransGen (Advances true) (start routes) ⟨[], d⟩ := by
  refine ⟨fun d h => ofRoutes_of_steps (steps_may_replace (steps_of_ofRoutes h)), ?_, ?_⟩
  · constructor
    · rintro ⟨f, hf⟩
      obtain ⟨name, -, hc⟩ := ofRoutes_error hf
      have reached : ∀ {p q}, Advances false p q → ReflTransGen (Advances false) (start routes) p →
          ReflTransGen (Advances false) (start routes) q := fun hstep hp => hp.tail hstep
      obtain ⟨ty, later, hsteps, hn, hm⟩ :=
        (ends_registerAll false (routes.flatMap Route.types) empty).invariant_of_conflict
          reached hc .refl
      obtain ⟨q, hstep, hover⟩ := overwrites_of_conflict hn hm later
      exact ⟨_, q, steps_may_replace hsteps, hstep, hover⟩
    · rintro ⟨p, q, hp, hstep, hover⟩
      cases h : ofRoutes false routes with
      | error f => exact ⟨f, rfl⟩
      | ok d =>
        have hd := steps_without_replacing hp (steps_of_ofRoutes h)
        exact ((hstep.without_replacing hd).1.not_overwrites hover).elim
  · obtain ⟨d, hd⟩ := ofRoutes_true_ok routes
    exact ⟨d, hd, steps_of_ofRoutes hd⟩

/-- A tag of another kind replaces the one that was declared in a box, so no table would be made
without replacing. -/
theorem tag_replaced :
    (∃ f, ofRoutes false [swapOf (boxOf .string) (tagOf .integer)] = .error f) ∧
    (∃ p q, ReflTransGen (Advances true) (start [swapOf (boxOf .string) (tagOf .integer)]) p ∧
      Advances true p q ∧ Overwrites p q) ∧
    ofRoutes true [swapOf (boxOf .string) (tagOf .integer)] =
      .ok ⟨[("Box", boxOf .string), ("Tag", tagOf .integer)]⟩ := by
  have hfails : ∃ f, ofRoutes false [swapOf (boxOf .string) (tagOf .integer)] = .error f :=
    ⟨_, rfl⟩
  exact ⟨hfails, (replacing_is_conservative _).2.1.1 hfails, rfl⟩

end Routes

end ApiBindings.Declarations
