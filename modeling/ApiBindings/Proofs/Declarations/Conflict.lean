import ApiBindings.Proofs.Declarations.Walk

/-!
# Conflicts

A walk passes by a named type that has the definition of the first type of its name, and so does not
come to every type there is. `meetings` lists all types but those below a type that is passed by.
While no conflict has come up, the table holds the first type met under each name, and every other
type met under that name refers back or has its definition (`Tracks`). Hence a conflict is found
whenever two meetings differ.

A difference below a type that is passed by is not found, since definitions know the types inside
them by name only.
-/

namespace ApiBindings

open Declarations

/-- The first type of a name. -/
def Ty.first? (name : String) (tys : List Ty) : Option Ty :=
  tys.find? fun ty => ty.name? == some name

/-- Whether a type has the definition of the first type of its name. -/
def Ty.repeats (met : List Ty) (name : String) (ty : Ty) : Bool :=
  (Ty.first? name met).any fun first => first.definition = ty.definition

mutual

/-- The named types that a walk has met, followed by those that it meets in a type. -/
def Ty.meetings (met : List Ty) : Ty → List Ty
  | .primitive _ => met
  | .array element => element.meetings met
  | .map key value => value.meetings (key.meetings met)
  | .union name cases => met ++ [.union name cases]
  | .record name members =>
    if Ty.repeats met name (.record name members) then met ++ [.record name members]
    else Ty.memberMeetings (met ++ [.record name members]) members

/-- The named types that a walk has met, followed by those that it meets in some members. -/
def Ty.memberMeetings (met : List Ty) : List Member → List Ty
  | [] => met
  | ⟨_, _, ty, _⟩ :: members => Ty.memberMeetings (ty.meetings met) members

end

/-- The named types that a walk over the types of routes meets, in order. -/
def Route.meetings (routes : List Route) : List Ty :=
  (routes.flatMap Route.types).foldl Ty.meetings []

/-- All types that occur in routes, at any depth. -/
def Route.occurrences (routes : List Route) : List Ty :=
  (routes.flatMap Route.types).flatMap fun ty => ty :: ty.referenced

namespace Ty

/-! ## What a type adds to the meetings -/

section Meetings

variable {met : List Ty} {ty : Ty} {name : String}

theorem memberMeetings_eq_foldl : ∀ (met : List Ty) (members : List Member),
    memberMeetings met members = (members.map (·.ty)).foldl meetings met
  | _, [] => rfl
  | met, ⟨_, _, ty, _⟩ :: members => by
    rw [memberMeetings, memberMeetings_eq_foldl (ty.meetings met) members]
    rfl

theorem meetings_of_unnamed (h : ty.name? = none) :
    ty.meetings met = ty.children.foldl meetings met := by
  cases ty with
  | primitive p => rfl
  | array element => rfl
  | map key value => rfl
  | union name cases => cases h
  | record name members => cases h

/-- A walk does not go below a reference back or a definition that it has met. -/
theorem meetings_of_met {first : Ty} (h : ty.name? = some name) (hf : first? name met = some first)
    (hd : ty.isStub ∨ first.definition = ty.definition) : ty.meetings met = met ++ [ty] := by
  cases ty with
  | union n cases => rfl
  | record n members =>
    obtain rfl : n = name := by simpa using h
    rcases hd with hs | hd
    · cases members with
      | nil =>
        rw [meetings]
        split <;> rfl
      | cons m members => cases hs
    · rw [meetings, if_pos (by simp [repeats, hf, hd])]
  | _ => cases h

theorem meetings_of_new (h : ty.name? = some name) (hm : first? name met = none) :
    ty.meetings met = ty.children.foldl meetings (met ++ [ty]) := by
  cases ty with
  | union n cases => rfl
  | record n members =>
    obtain rfl : n = name := by simpa using h
    rw [meetings, if_neg (by simp [repeats, hm]), memberMeetings_eq_foldl]
    rfl
  | _ => cases h

end Meetings

mutual

theorem prefix_meetings (met : List Ty) : ∀ ty : Ty, met <+: ty.meetings met
  | .primitive _ => List.prefix_refl _
  | .array element => prefix_meetings met element
  | .map key value => (prefix_meetings met key).trans (prefix_meetings _ value)
  | .union _ _ => List.prefix_append _ _
  | .record name members => by
    rw [meetings]
    split
    · exact List.prefix_append _ _
    · exact (List.prefix_append _ _).trans (prefix_memberMeetings _ members)

theorem prefix_memberMeetings (met : List Ty) : ∀ members : List Member,
    met <+: memberMeetings met members
  | [] => List.prefix_refl _
  | ⟨_, _, ty, _⟩ :: members =>
    (prefix_meetings met ty).trans (prefix_memberMeetings _ members)

end

theorem prefix_foldl_meetings (tys : List Ty) (met : List Ty) :
    met <+: tys.foldl meetings met := by
  induction tys generalizing met with
  | nil => exact List.prefix_refl _
  | cons ty tys ih => exact (prefix_meetings met ty).trans (ih _)

/-- A named type is met itself before the types below it. -/
theorem append_prefix_meetings {met : List Ty} {ty : Ty} {name : String}
    (h : ty.name? = some name) : met ++ [ty] <+: ty.meetings met := by
  cases ty with
  | union n cases => exact List.prefix_refl _
  | record n members =>
    rw [meetings]
    split
    · exact List.prefix_refl _
    · exact prefix_memberMeetings _ members
  | _ => cases h

/-! ## The first type of a name -/

section First

variable {met : List Ty} {ty : Ty} {name other : String}

theorem first?_isSome_of_mem (ht : ty ∈ met) (hn : ty.name? = some name) :
    (first? name met).isSome := by
  rw [first?, List.find?_isSome]
  exact ⟨ty, ht, by simp [hn]⟩

theorem first?_append_of_isSome (h : (first? name met).isSome) (tys : List Ty) :
    first? name (met ++ tys) = first? name met := by
  unfold first? at h ⊢
  rw [List.find?_append, Option.or_of_isSome h]

theorem first?_append_self (h : first? name met = none) (hn : ty.name? = some name) :
    first? name (met ++ [ty]) = some ty := by
  unfold first? at h ⊢
  rw [List.find?_append, h]
  simp [hn]

theorem first?_append_of_ne (hn : ty.name? = some name) (h : other ≠ name) :
    first? other (met ++ [ty]) = first? other met := by
  have hne : ¬ name = other := fun he => h he.symm
  unfold first?
  rw [List.find?_append]
  simp [hn, hne]

end First

end Ty

namespace Declarations

open Ty

/-! ## What the table keeps of the meetings -/

/-- The table holds the first type met under each name, and every other type met under the name
refers back or has the same definition. -/
structure Tracks (met : List Ty) (d : Declarations) : Prop where
  get?_eq : ∀ name, d.get? name = first? name met
  agrees : ∀ ty ∈ met, ∀ name earlier, ty.name? = some name → d.get? name = some earlier →
    ty.isStub ∨ earlier.definition = ty.definition

namespace Tracks

variable {met : List Ty} {d : Declarations} {ty earlier : Ty} {name : String}

theorem nil : Tracks [] empty where
  get?_eq _ := rfl
  agrees ty ht := by cases ht

theorem pass (h : Tracks met d) (hn : ty.name? = some name) (he : d.get? name = some earlier)
    (hd : ty.isStub ∨ earlier.definition = ty.definition) : Tracks (met ++ [ty]) d where
  get?_eq other := by
    rw [h.get?_eq other]
    by_cases ho : other = name
    · have hs : (first? other met).isSome := by rw [← h.get?_eq, ho, he]; rfl
      exact (first?_append_of_isSome hs _).symm
    · exact (first?_append_of_ne hn ho).symm
  agrees u hu other e ho hg := by
    rcases List.mem_append.1 hu with hu | hu
    · exact h.agrees u hu other e ho hg
    · obtain rfl := List.mem_singleton.1 hu
      obtain rfl : name = other := Option.some.inj (hn.symm.trans ho)
      obtain rfl : earlier = e := Option.some.inj (he.symm.trans hg)
      exact hd

theorem declare (h : Tracks met d) (hn : ty.name? = some name) (he : d.get? name = none) :
    Tracks (met ++ [ty]) (d.declare name ty) where
  get?_eq other := by
    by_cases ho : other = name
    · rw [ho, get?_declare_self, first?_append_self (h.get?_eq name ▸ he) hn]
    · rw [get?_declare_of_ne ho, h.get?_eq, first?_append_of_ne hn ho]
  agrees u hu other e ho hg := by
    rcases List.mem_append.1 hu with hu | hu
    · have hne : other ≠ name := by
        rintro rfl
        have hs := first?_isSome_of_mem hu ho
        rw [← h.get?_eq, he] at hs
        cases hs
      rw [get?_declare_of_ne hne] at hg
      exact h.agrees u hu other e ho hg
    · obtain rfl := List.mem_singleton.1 hu
      obtain rfl : name = other := Option.some.inj (hn.symm.trans ho)
      rw [get?_declare_self] at hg
      exact .inr (by rw [Option.some.inj hg])

end Tracks

/-- The table tracks what has been met, and the pending types lead to the given meetings. -/
def OnTrack (total : List Ty) (p : Progress) : Prop :=
  ∃ met, Tracks met p.table ∧ p.pending.foldl meetings met = total

theorem Advances.onTrack {total : List Ty} {p q : Progress} (h : Advances false p q)
    (hp : OnTrack total p) : OnTrack total q := by
  obtain ⟨met, ht, hf⟩ := hp
  cases h with
  | enter hn =>
    refine ⟨met, ht, ?_⟩
    rw [List.foldl_append, ← meetings_of_unnamed hn]
    exact hf
  | @pass ty rest d name hn hm =>
    obtain ⟨earlier, he, hd⟩ := meet_known hm
    refine ⟨met ++ [ty], ht.pass hn he hd, ?_⟩
    rw [← meetings_of_met hn (ht.get?_eq name ▸ he) hd]
    exact hf
  | @declare ty rest d name table hn hm =>
    obtain ⟨rfl, hr⟩ := meet_declared hm
    have he : d.get? name = none := by
      rw [Option.eq_none_iff_forall_ne_some]
      intro earlier he
      cases (hr earlier he).1
    refine ⟨met ++ [ty], ht.declare hn he, ?_⟩
    rw [List.foldl_append, ← meetings_of_new hn (ht.get?_eq name ▸ he)]
    exact hf

theorem onTrack_start (tys : List Ty) : OnTrack (tys.foldl meetings []) ⟨tys, empty⟩ :=
  ⟨[], .nil, rfl⟩

/-! ## Whole walks -/

theorem tracks_of_ofRoutes {routes : List Route} {d : Declarations}
    (h : ofRoutes false routes = .ok d) : Tracks (Route.meetings routes) d := by
  have ends := ends_registerAll false (routes.flatMap Route.types) empty
  rw [ofRoutes_ok h] at ends
  obtain ⟨met, ht, hf⟩ := ends.invariant Advances.onTrack rfl (onTrack_start _)
  rw [Route.meetings, ← hf]
  exact ht

/-- Where a conflict comes up, a type is met whose definition is not that of the first of its
name. -/
theorem exists_differing_of_ofRoutes {routes : List Route} {name : String}
    (h : ofRoutes false routes = .error (.conflictingType name)) :
    ∃ first, Ty.first? name (Route.meetings routes) = some first ∧
      ∃ ty ∈ Route.meetings routes, ty.name? = some name ∧ ¬ ty.isStub ∧
        first.definition ≠ ty.definition := by
  obtain ⟨_, he, hc⟩ := ofRoutes_error h
  cases he
  have ends := ends_registerAll false (routes.flatMap Route.types) empty
  obtain ⟨ty, later, ⟨met, ht, hf⟩, hn, hm⟩ :=
    ends.invariant_of_conflict Advances.onTrack hc (onTrack_start _)
  obtain ⟨first, hfirst, -, hs, hd⟩ := meet_conflict hm
  rw [ht.get?_eq] at hfirst
  have hsome : (first? name met).isSome := by rw [hfirst]; rfl
  have hprefix := (append_prefix_meetings hn).trans (prefix_foldl_meetings later (ty.meetings met))
  rw [← List.foldl_cons, hf] at hprefix
  obtain ⟨after, ha⟩ := hprefix
  rw [Route.meetings, ← ha]
  refine ⟨first, ?_, ty, by simp, hn, hs, hd⟩
  rw [List.append_assoc, first?_append_of_isSome hsome, hfirst]

/-- **Conflicts are found among the meetings.** If a walk without replacing meets two types of one
name that are no references back and differ in their definitions, it ends in a conflict; and it ends
in a conflict only if it meets a type that differs from the first of its name. -/
theorem conflict_found_among_meetings (routes : List Route) :
    (∀ a ∈ Route.meetings routes, ∀ b ∈ Route.meetings routes, ∀ name,
      a.name? = some name → b.name? = some name → ¬ a.isStub → ¬ b.isStub →
        a.definition ≠ b.definition →
          ∃ other, ofRoutes false routes = .error (.conflictingType other)) ∧
    ∀ name, ofRoutes false routes = .error (.conflictingType name) →
      ∃ first, Ty.first? name (Route.meetings routes) = some first ∧
        ∃ ty ∈ Route.meetings routes, ty.name? = some name ∧ ¬ ty.isStub ∧
          first.definition ≠ ty.definition := by
  refine ⟨?_, fun name => exists_differing_of_ofRoutes⟩
  intro a ha b hb name hna hnb hsa hsb hd
  cases h : ofRoutes false routes with
  | error f =>
    obtain ⟨other, rfl, -⟩ := ofRoutes_error h
    exact ⟨other, rfl⟩
  | ok d =>
    have tracks := tracks_of_ofRoutes h
    obtain ⟨first, hf⟩ := Option.isSome_iff_exists.1 (first?_isSome_of_mem ha hna)
    rw [← tracks.get?_eq] at hf
    have hfa := (tracks.agrees a ha name first hna hf).resolve_left hsa
    have hfb := (tracks.agrees b hb name first hnb hf).resolve_left hsb
    exact absurd (hfa.symm.trans hfb) hd

/-! ## Differences that are and are not met -/

/-- A record whose only member has a primitive type. -/
def tagOf (id : Primitive) : Ty := .record "Tag" [⟨"id", none, .primitive id, false⟩]

/-- A record whose only member is a tag. -/
def boxOf (id : Primitive) : Ty := .record "Box" [⟨"tag", none, tagOf id, false⟩]

/-- A function that is given one type and hands back another. -/
def swapOf (payload response : Ty) : Route :=
  ⟨"swap", none, .post, "/swap", "/swap", "", [], some payload, some response⟩

/-- The tag in a box differs from a tag that is met later. -/
theorem conflict_found_below_box :
    ∃ other, ofRoutes false [swapOf (boxOf .string) (tagOf .integer)] =
      .error (.conflictingType other) := by
  have met : Route.meetings [swapOf (boxOf .string) (tagOf .integer)] =
      [boxOf .string, tagOf .string, tagOf .integer] := rfl
  exact (conflict_found_among_meetings _).1 (tagOf .string) (by rw [met]; simp) (tagOf .integer)
    (by rw [met]; simp) "Tag" rfl rfl (by decide) (by decide) (by decide)

/-- Types of one name may differ at some depth without a conflict: the second box has the definition
of the first, and its tag is not met. -/
theorem conflict_missed_below_equal_box :
    ¬ ∀ (routes : List Route), ∀ a ∈ Route.occurrences routes, ∀ b ∈ Route.occurrences routes,
      ∀ name, a.name? = some name → b.name? = some name → ¬ a.isStub → ¬ b.isStub →
        a.definition ≠ b.definition →
          ∃ other, ofRoutes false routes = .error (.conflictingType other) := by
  intro h
  have occur : Route.occurrences [swapOf (boxOf .string) (boxOf .integer)] =
      [boxOf .string, tagOf .string, .primitive .string,
        boxOf .integer, tagOf .integer, .primitive .integer] := rfl
  have declared : ofRoutes false [swapOf (boxOf .string) (boxOf .integer)] =
      .ok ⟨[("Box", boxOf .string), ("Tag", tagOf .string)]⟩ := rfl
  obtain ⟨other, hc⟩ := h [swapOf (boxOf .string) (boxOf .integer)] (tagOf .string)
    (by rw [occur]; simp) (tagOf .integer) (by rw [occur]; simp) "Tag" rfl rfl (by decide)
    (by decide) (by decide)
  rw [declared] at hc
  cases hc

end Declarations

end ApiBindings
