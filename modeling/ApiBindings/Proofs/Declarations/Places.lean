import ApiBindings.Declarations

/-!
# Places

A place is a type together with the types around it. The places in a type come in the order of a
walk that leaves nothing out: each before the places below it, and those from left to right
(`Place.within_eq`).

A record without members that stands below a record of its name refers back to it. Places are
coherent if the types in them have one definition for each name, references back aside.
-/

namespace ApiBindings

/-- A type in its place, with the types around it, the innermost first. -/
structure Place where
  around : List Ty
  ty : Ty

mutual

/-- The places in a type that has some types around it. -/
def Ty.places (around : List Ty) : Ty → List Place
  | .primitive p => [⟨around, .primitive p⟩]
  | .array element => ⟨around, .array element⟩ :: element.places (.array element :: around)
  | .map key value =>
    ⟨around, .map key value⟩ ::
      (key.places (.map key value :: around) ++ value.places (.map key value :: around))
  | .union name cases => [⟨around, .union name cases⟩]
  | .record name members =>
    ⟨around, .record name members⟩ :: Ty.memberPlaces (.record name members :: around) members

/-- The places in the types of some members. -/
def Ty.memberPlaces (around : List Ty) : List Member → List Place
  | [] => []
  | ⟨_, _, ty, _⟩ :: members => ty.places around ++ Ty.memberPlaces around members

end

namespace Place

/-- The place of a type with nothing around it. -/
def root (ty : Ty) : Place := ⟨[], ty⟩

/-- The places directly below a place. -/
def below (p : Place) : List Place := p.ty.children.map fun child => ⟨p.ty :: p.around, child⟩

/-- A place and all places below it. -/
def within (p : Place) : List Place := p.ty.places p.around

/-- Whether a record without members stands below a record of its name that has members. -/
def refersBack (p : Place) : Bool :=
  p.ty.isStub && p.around.any fun outer => outer.hasMembers && outer.name? == p.ty.name?

variable {p q child : Place} {name : String}

@[simp] theorem map_ty_below (p : Place) : p.below.map ty = p.ty.children := by
  rw [below, List.map_map]
  exact List.map_id _

theorem around_of_mem_below (h : child ∈ p.below) : child.around = p.ty :: p.around := by
  obtain ⟨ty, -, rfl⟩ := List.mem_map.1 h
  rfl

theorem ty_mem_children_of_mem_below (h : child ∈ p.below) : child.ty ∈ p.ty.children := by
  obtain ⟨ty, ht, rfl⟩ := List.mem_map.1 h
  exact ht

theorem memberPlaces_eq_flatMap (around : List Ty) : ∀ members : List Member,
    Ty.memberPlaces around members = members.flatMap fun m => within ⟨around, m.ty⟩
  | [] => rfl
  | ⟨_, _, ty, _⟩ :: members => by
    rw [Ty.memberPlaces, memberPlaces_eq_flatMap around members, List.flatMap_cons]
    rfl

theorem within_eq (p : Place) : p.within = p :: p.below.flatMap within := by
  obtain ⟨around, ty⟩ := p
  cases ty with
  | primitive p => rfl
  | array element => simp [within, below, Ty.places, Ty.children]
  | map key value => simp [within, below, Ty.places, Ty.children]
  | union name cases => rfl
  | record name members =>
    simp [within, below, Ty.places, Ty.children, memberPlaces_eq_flatMap, List.flatMap_map]

theorem self_mem_within (p : Place) : p ∈ p.within := by
  rw [within_eq]
  exact List.mem_cons_self

theorem sizeOf_lt_of_mem_below (h : child ∈ p.below) : sizeOf child.ty < sizeOf p.ty :=
  Ty.sizeOf_lt_of_mem_children (ty_mem_children_of_mem_below h)

/-- What holds of a place and passes on to the places directly below holds of all places below. -/
theorem within_induction {P : Place → Prop} (step : ∀ q, P q → ∀ child ∈ q.below, P child)
    (p : Place) (hp : P p) : ∀ q ∈ p.within, P q := by
  intro q hq
  rw [within_eq] at hq
  rcases List.mem_cons.1 hq with rfl | hq
  · exact hp
  · obtain ⟨child, hchild, hq⟩ := List.mem_flatMap.1 hq
    have := sizeOf_lt_of_mem_below hchild
    exact within_induction step child (step p hp child hchild) q hq
termination_by sizeOf p.ty

theorem mem_within_of_mem_below {p q child : Place} (hq : q ∈ p.within) (hc : child ∈ q.below) :
    child ∈ p.within := by
  rw [within_eq] at hq ⊢
  rcases List.mem_cons.1 hq with rfl | hq
  · exact List.mem_cons_of_mem _ (List.mem_flatMap.2 ⟨child, hc, self_mem_within child⟩)
  · obtain ⟨between, hb, hq⟩ := List.mem_flatMap.1 hq
    have := sizeOf_lt_of_mem_below hb
    exact List.mem_cons_of_mem _ (List.mem_flatMap.2 ⟨between, hb, mem_within_of_mem_below hq hc⟩)
termination_by sizeOf p.ty

end Place

/-! ## The places of routes -/

/-- All places in the types of routes, in order. -/
def Route.places (routes : List Route) : List Place :=
  (routes.flatMap Route.types).flatMap fun ty => (Place.root ty).within

theorem Route.mem_places_of_mem_below {routes : List Route} {p child : Place}
    (hp : p ∈ Route.places routes) (hc : child ∈ p.below) : child ∈ Route.places routes := by
  obtain ⟨ty, ht, hp⟩ := List.mem_flatMap.1 hp
  exact List.mem_flatMap.2 ⟨ty, ht, Place.mem_within_of_mem_below hp hc⟩

/-- Types of one name have one definition wherever they stand, references back aside. -/
def Coherent (places : List Place) : Prop :=
  ∀ p ∈ places, ∀ q ∈ places, p.ty.name?.isSome → p.ty.name? = q.ty.name? →
    ¬ p.refersBack → ¬ q.refersBack → p.ty.definition = q.ty.definition

instance (places : List Place) : Decidable (Coherent places) :=
  inferInstanceAs (Decidable (∀ p ∈ places, ∀ q ∈ places, p.ty.name?.isSome →
    p.ty.name? = q.ty.name? → ¬ p.refersBack → ¬ q.refersBack →
      p.ty.definition = q.ty.definition))

/-- No record with members stands below a record of its name. -/
def Unnested (places : List Place) : Prop :=
  ∀ p ∈ places, p.ty.hasMembers → ∀ outer ∈ p.around, outer.name? ≠ p.ty.name?

instance (places : List Place) : Decidable (Unnested places) :=
  inferInstanceAs (Decidable (∀ p ∈ places, p.ty.hasMembers → ∀ outer ∈ p.around,
    outer.name? ≠ p.ty.name?))

end ApiBindings
