import ApiBindings.Proofs.Declarations.Closed
import ApiBindings.Proofs.Declarations.Conflict
import ApiBindings.Proofs.Declarations.Places

/-!
# Skipping loses nothing

A walk does not go below a type that is known. If the types at all places are coherent, it comes to
the same declarations as a walk that leaves nothing out.

Every declared type stands at some place and is no reference back, and the types around a pending
type are declared (`Underway`). So a reference back is never declared, and what is met under a known
name agrees with what is declared. For the names below, a name that the definition of a declared
type spells is declared itself, unless a pending type that stands inside that type spells it. At the
end no type is pending, so that every name is declared that occurs anywhere.

For the order, the names below a known type must be declared at the time. If no record with members
stands below a record of its name, no type inside the known one is still being walked
(`Underway.known_within`).
-/

namespace ApiBindings

open Declarations

/-! ## Types of one definition -/

section Definition

variable {ty ty' : Ty} {name : String}

/-- Types of one name and one definition are used alike in their parts. -/
theorem Ty.uses_eq_of_definition_eq (h : ty.definition = ty'.definition)
    (hn : ty.name? = some name) (hn' : ty'.name? = some name) :
    ty.children.map Ty.use = ty'.children.map Ty.use := by
  cases ty with
  | union n cases =>
    cases ty' with
    | union n' cases' => rfl
    | record n' members' => cases h
    | _ => cases hn'
  | record n members =>
    cases ty' with
    | union n' cases' => cases h
    | record n' members' =>
      simp only [Ty.definition, Definition.record.injEq] at h
      have huses := congrArg (List.map Field.use) h.2
      simpa [Ty.children, List.map_map, Function.comp_def] using huses
    | _ => cases hn'
  | _ => cases hn

theorem Ty.hasMembers_of_definition_eq (h : ty.definition = ty'.definition)
    (hm : ty'.hasMembers) : ty.hasMembers := by
  cases ty' with
  | record n' members' =>
    cases members' with
    | nil => cases hm
    | cons m' members' =>
      cases ty with
      | record n members =>
        cases members with
        | nil => cases h
        | cons m members => rfl
      | _ => cases h
  | _ => cases hm

theorem Place.not_refersBack_of_hasMembers {p : Place} (h : p.ty.hasMembers) : ¬ p.refersBack := by
  simp [Place.refersBack, Ty.isStub_of_hasMembers h]

end Definition

namespace Declarations

/-! ## The places of a walk -/

/-- The pending types of a walk stand at the given places, and the declared types at some places
that are no references back. What lies around a pending type is declared, and lies around the types
that are visited before it. A name that a definition spells is declared, or a type spells it that is
pending inside the declared one. -/
structure Underway (all pending : List Place) (d : Declarations) : Prop where
  mem : ∀ p ∈ pending, p ∈ all
  nested : pending.Pairwise fun p later => later.around ⊆ p.around
  opened : ∀ p ∈ pending, ∀ outer ∈ p.around, ∀ name, outer.name? = some name → name ∈ d.names
  declared : ∀ name ty, d.get? name = some ty →
    ∃ p ∈ all, p.ty = ty ∧ ty.name? = some name ∧ ¬ p.refersBack
  settled : ∀ name ty, d.get? name = some ty →
    ∀ part ∈ ty.children, ∀ other ∈ part.use.names, other ∈ d.names ∨
      ∃ p ∈ pending, other ∈ p.ty.use.names ∧ ∃ outer ∈ p.around, outer.name? = some name

namespace Underway

variable {all pending rest : List Place} {p q child : Place} {d table : Declarations}
  {name : String} {ty : Ty} {replace : Bool}

/-! ### What is met -/

theorem agrees (h : Underway all pending d) (hc : Coherent all) (hq : q ∈ all)
    (hn : q.ty.name? = some name) (hb : ¬ q.refersBack) (hg : d.get? name = some ty) :
    ty.definition = q.ty.definition := by
  obtain ⟨p, hp, rfl, hname, hpb⟩ := h.declared name ty hg
  exact hc p hp q hq (by simp [hname]) (hname.trans hn.symm) hpb hb

theorem mem_names_of_refersBack (h : Underway all pending d) (hp : p ∈ pending)
    (hn : p.ty.name? = some name) (hb : p.refersBack) : name ∈ d.names := by
  simp only [Place.refersBack, Bool.and_eq_true, List.any_eq_true, beq_iff_eq] at hb
  obtain ⟨-, outer, ho, -, hname⟩ := hb
  exact h.opened p hp outer ho name (hname.trans hn)

theorem meet_cases (h : Underway all pending d) (hc : Coherent all) (hp : p ∈ pending)
    (hn : p.ty.name? = some name) (replace : Bool) :
    meet replace name p.ty d = .known ∧ name ∈ d.names ∨
      meet replace name p.ty d = .declared (d.declare name p.ty) ∧ d.get? name = none ∧
        ¬ p.refersBack := by
  unfold meet
  cases hg : d.get? name with
  | none =>
    refine .inr ⟨rfl, rfl, fun hb => ?_⟩
    obtain ⟨ty, hty⟩ := mem_names_iff.1 (h.mem_names_of_refersBack hp hn hb)
    cases hg.symm.trans hty
  | some earlier =>
    refine .inl ⟨?_, mem_names_of_get? hg⟩
    by_cases hs : p.ty.isStub
    · simp [hs]
    · have hb : ¬ p.refersBack := by simp [Place.refersBack, hs]
      simp [h.agrees hc (h.mem p hp) hn hb hg]

/-! ### Steps -/

theorem eq_or_below_of_mem_names {other : String} (ho : other ∈ p.ty.use.names) :
    p.ty.name? = some other ∨ ∃ child ∈ p.below, other ∈ child.ty.use.names := by
  cases hn : p.ty.name? with
  | some name =>
    rw [Ty.names_use_of_name? hn, List.mem_singleton] at ho
    exact .inl (congrArg some ho.symm)
  | none =>
    rw [Ty.names_use_of_unnamed hn] at ho
    obtain ⟨part, hpart, ho⟩ := List.mem_flatMap.1 ho
    exact .inr ⟨_, List.mem_map_of_mem hpart, ho⟩

theorem pass (h : Underway all (p :: rest) d) (hn : p.ty.name? = some name) (hd : name ∈ d.names) :
    Underway all rest d where
  mem q hq := h.mem q (List.mem_cons_of_mem _ hq)
  nested := (List.pairwise_cons.1 h.nested).2
  opened q hq := h.opened q (List.mem_cons_of_mem _ hq)
  declared := h.declared
  settled other ty hg part hpart spelled ho := by
    rcases h.settled other ty hg part hpart spelled ho with ho | ⟨q, hq, ho, houter⟩
    · exact .inl ho
    · rcases List.mem_cons.1 hq with rfl | hq
      · rw [Ty.names_use_of_name? hn, List.mem_singleton] at ho
        exact .inl (ho ▸ hd)
      · exact .inr ⟨q, hq, ho, houter⟩

/-- A type makes way for the places below it when its name, if it has one, is declared and no other
type is declared anew. -/
theorem descend (h : Underway all (p :: rest) d) (hall : ∀ q ∈ all, ∀ c ∈ q.below, c ∈ all)
    (hnames : d.names ⊆ table.names) (hself : ∀ name, p.ty.name? = some name → name ∈ table.names)
    (hnew : ∀ name ty, table.get? name = some ty →
      d.get? name = some ty ∨ ty = p.ty ∧ p.ty.name? = some name ∧ ¬ p.refersBack) :
    Underway all (p.below ++ rest) table := by
  have hp := h.mem p List.mem_cons_self
  obtain ⟨hfirst, hlater⟩ := List.pairwise_cons.1 h.nested
  refine ⟨?_, ?_, ?_, ?_, ?_⟩
  · intro q hq
    rcases List.mem_append.1 hq with hq | hq
    · exact hall p hp q hq
    · exact h.mem q (List.mem_cons_of_mem _ hq)
  · refine List.pairwise_append.2 ⟨?_, hlater, fun c hc q hq => ?_⟩
    · refine List.Pairwise.imp_of_mem (fun hc hc' _ => ?_)
        (List.pairwise_of_forall fun _ _ => trivial)
      rw [Place.around_of_mem_below hc, Place.around_of_mem_below hc']
      exact List.Subset.refl _
    · rw [Place.around_of_mem_below hc]
      exact List.Subset.trans (hfirst q hq) (List.subset_cons_self _ _)
  · intro q hq outer ho name hname
    rcases List.mem_append.1 hq with hq | hq
    · rw [Place.around_of_mem_below hq] at ho
      rcases List.mem_cons.1 ho with rfl | ho
      · exact hself name hname
      · exact hnames (h.opened p List.mem_cons_self outer ho name hname)
    · exact hnames (h.opened q (List.mem_cons_of_mem _ hq) outer ho name hname)
  · intro name ty hg
    rcases hnew name ty hg with hg | ⟨rfl, hname, hb⟩
    · exact h.declared name ty hg
    · exact ⟨p, hp, rfl, hname, hb⟩
  · intro name ty hg part hpart other ho
    rcases hnew name ty hg with hg | ⟨rfl, hname, -⟩
    · rcases h.settled name ty hg part hpart other ho with ho | ⟨q, hq, ho, outer, houter, hname⟩
      · exact .inl (hnames ho)
      rcases List.mem_cons.1 hq with rfl | hq
      · rcases eq_or_below_of_mem_names ho with hn | ⟨c, hc, ho⟩
        · exact .inl (hself other hn)
        · refine .inr ⟨c, List.mem_append_left _ hc, ho, outer, ?_, hname⟩
          rw [Place.around_of_mem_below hc]
          exact List.mem_cons_of_mem _ houter
      · exact .inr ⟨q, List.mem_append_right _ hq, ho, outer, houter, hname⟩
    · exact .inr ⟨⟨p.ty :: p.around, part⟩, List.mem_append_left _ (List.mem_map_of_mem hpart), ho,
        p.ty, List.mem_cons_self, hname⟩

theorem enter (h : Underway all (p :: rest) d) (hall : ∀ q ∈ all, ∀ c ∈ q.below, c ∈ all)
    (hn : p.ty.name? = none) : Underway all (p.below ++ rest) d :=
  h.descend hall (List.Subset.refl _) (fun name hname => by cases hn.symm.trans hname)
    fun name ty hg => .inl hg

theorem declare (h : Underway all (p :: rest) d) (hall : ∀ q ∈ all, ∀ c ∈ q.below, c ∈ all)
    (hn : p.ty.name? = some name) (hb : ¬ p.refersBack) :
    Underway all (p.below ++ rest) (d.declare name p.ty) := by
  refine h.descend hall names_subset_declare ?_ ?_
  · intro other ho
    exact mem_names_declare.2 (.inl (Option.some.inj (ho.symm.trans hn)))
  · intro other ty hg
    rw [get?_declare] at hg
    split_ifs at hg with ho
    · cases hg
      exact .inr ⟨rfl, ho ▸ hn, hb⟩
    · exact .inl hg

/-! ### Names below a place -/

/-- The names that are spelled directly below a place are declared if those at the place are, and if
nothing is pending inside the type declared under its name. -/
theorem mem_names_below (h : Underway all pending d) (hc : Coherent all) (hq : q ∈ all)
    (hnames : ∀ other ∈ q.ty.use.names, other ∈ d.names) (hchild : child ∈ q.below)
    (hdone : ∀ p ∈ pending, ∀ outer ∈ p.around, ∀ name, outer.name? = some name →
      q.ty.name? ≠ some name) :
    ∀ other ∈ child.ty.use.names, other ∈ d.names := by
  intro other ho
  have hpart := Place.ty_mem_children_of_mem_below hchild
  cases hn : q.ty.name? with
  | none =>
    refine hnames other ?_
    rw [Ty.names_use_of_unnamed hn]
    exact List.mem_flatMap.2 ⟨child.ty, hpart, ho⟩
  | some name =>
    have hname : name ∈ d.names := by
      refine hnames name ?_
      rw [Ty.names_use_of_name? hn]
      exact List.mem_singleton_self _
    obtain ⟨declared, hg⟩ := mem_names_iff.1 hname
    obtain ⟨p, -, rfl, hpn, -⟩ := h.declared name declared hg
    have hb := Place.not_refersBack_of_hasMembers (Ty.hasMembers_of_mem_children hpart hn)
    have huses := Ty.uses_eq_of_definition_eq (h.agrees hc hq hn hb hg) hpn hn
    -- the declared type has a part that is used like the child
    have huse : child.ty.use ∈ p.ty.children.map Ty.use := by
      rw [huses]
      exact List.mem_map_of_mem hpart
    obtain ⟨part, hpart, heq⟩ := List.mem_map.1 huse
    refine (h.settled name p.ty hg part hpart other (heq ▸ ho)).resolve_right ?_
    rintro ⟨x, hx, -, outer, houter, hon⟩
    exact hdone x hx outer houter name hon hn

/-- Where no record with members stands below a record of its name, every name below a known type is
declared by the time the type is met. -/
theorem known_within (h : Underway all (p :: rest) d) (hall : ∀ q ∈ all, ∀ c ∈ q.below, c ∈ all)
    (hc : Coherent all) (hu : Unnested all) (hn : p.ty.name? = some name) (hd : name ∈ d.names) :
    ∀ q ∈ p.within, ∀ other, q.ty.name? = some other → other ∈ d.names := by
  have hkept := Place.within_induction
    (P := fun q => q ∈ all ∧ p.around ⊆ q.around ∧ ∀ other ∈ q.ty.use.names, other ∈ d.names)
    ?_ p ?_
  · intro q hq other ho
    refine (hkept q hq).2.2 other ?_
    rw [Ty.names_use_of_name? ho]
    exact List.mem_singleton_self _
  · rintro q ⟨hq, haround, hnames⟩ child hchild
    refine ⟨hall q hq child hchild, ?_, h.mem_names_below hc hq hnames hchild ?_⟩
    · rw [Place.around_of_mem_below hchild]
      exact List.Subset.trans haround (List.subset_cons_self _ _)
    -- what lies around a pending type lies around the known one, and so around the place below it
    · intro x hx outer houter name hon hqn
      have hxp : x.around ⊆ p.around := by
        rcases List.mem_cons.1 hx with rfl | hx
        · exact List.Subset.refl _
        · exact (List.pairwise_cons.1 h.nested).1 x hx
      have hm := Ty.hasMembers_of_mem_children (Place.ty_mem_children_of_mem_below hchild) hqn
      exact hu q hq hm outer (haround (hxp houter)) (hon.trans hqn.symm)
  · refine ⟨h.mem p List.mem_cons_self, List.Subset.refl _, fun other ho => ?_⟩
    rw [Ty.names_use_of_name? hn, List.mem_singleton] at ho
    exact ho ▸ hd

end Underway

/-! ## The order of declarations -/

/-- A table holds the first type of every name, under the names in the order of first appearance. -/
structure Listed (met : List Ty) (d : Declarations) : Prop where
  get?_eq : ∀ name, d.get? name = Ty.first? name met
  names_eq : d.names = (met.filterMap Ty.name?).eraseDups

namespace Listed

variable {met more : List Ty} {d : Declarations} {ty : Ty} {name : String}

theorem nil : Listed [] empty where
  get?_eq _ := rfl
  names_eq := rfl

theorem mem_names_iff (h : Listed met d) : name ∈ d.names ↔ name ∈ met.filterMap Ty.name? := by
  rw [h.names_eq, List.mem_eraseDups]

theorem append_known (h : Listed met d)
    (hk : ∀ ty ∈ more, ∀ name, ty.name? = some name → name ∈ d.names) : Listed (met ++ more) d where
  get?_eq name := by
    cases hg : d.get? name with
    | some earlier =>
      have hs : (Ty.first? name met).isSome := by rw [← h.get?_eq, hg]; rfl
      rw [Ty.first?_append_of_isSome hs, ← h.get?_eq, hg]
    | none =>
      have hmet : Ty.first? name met = none := (h.get?_eq name).symm.trans hg
      unfold Ty.first? at hmet ⊢
      rw [List.find?_append, hmet, Option.none_or, eq_comm, List.find?_eq_none]
      intro ty hty hname
      obtain ⟨earlier, he⟩ := Declarations.mem_names_iff.1 (hk ty hty name (by simpa using hname))
      cases hg.symm.trans he
  names_eq := by
    have hnil : (more.filterMap Ty.name?).removeAll (met.filterMap Ty.name?) = [] := by
      rw [List.removeAll, List.filter_eq_nil_iff]
      intro name hname
      obtain ⟨ty, hty, hn⟩ := List.mem_filterMap.1 hname
      simpa using h.mem_names_iff.1 (hk ty hty name hn)
    rw [List.filterMap_append, List.eraseDups_append, hnil, ← h.names_eq]
    exact (List.append_nil _).symm

theorem append_new (h : Listed met d) (hn : ty.name? = some name) (hg : d.get? name = none) :
    Listed (met ++ [ty]) (d.declare name ty) where
  get?_eq other := by
    by_cases ho : other = name
    · rw [ho, get?_declare_self, Ty.first?_append_self ((h.get?_eq name).symm.trans hg) hn]
    · rw [get?_declare_of_ne ho, h.get?_eq, Ty.first?_append_of_ne hn ho]
  names_eq := by
    have hd : name ∉ d.names := by
      intro hmem
      obtain ⟨earlier, he⟩ := Declarations.mem_names_iff.1 hmem
      cases hg.symm.trans he
    have hone : [name].removeAll (met.filterMap Ty.name?) = [name] := by
      have := mt h.mem_names_iff.2 hd
      simpa [List.removeAll] using this
    rw [List.filterMap_append, List.filterMap_cons_some hn, List.filterMap_nil,
      List.eraseDups_append, hone, ← h.names_eq]
    exact Table.keys_update_of_not_mem _ hd

end Listed

/-! ## Whole walks -/

/-- The places that a walk has come past, and those where it goes on, make up all places. If no
record with members stands below a record of its name, the table lists what it has come past. -/
structure Tracked (all met pending : List Place) (d : Declarations) : Prop where
  underway : Underway all pending d
  split : met ++ pending.flatMap Place.within = all
  listed : Unnested all → Listed (met.map Place.ty) d

/-- A walk goes on at some places of all. -/
def AtPlaces (all : List Place) (p : Progress) : Prop :=
  ∃ met pending, pending.map Place.ty = p.pending ∧ Tracked all met pending p.table

section Walk

variable {all : List Place} {p q : Progress} {replace : Bool}

theorem Advances.atPlaces (hall : ∀ q ∈ all, ∀ c ∈ q.below, c ∈ all) (hc : Coherent all)
    (h : Advances replace p q) (hp : AtPlaces all p) : AtPlaces all q := by
  obtain ⟨met, pending, hmap, hunder, hsplit, hlisted⟩ := hp
  cases h with
  | @enter ty rest d hn =>
    obtain ⟨place, later, rfl, rfl, rfl⟩ := List.map_eq_cons_iff.1 hmap
    refine ⟨met ++ [place], place.below ++ later, by simp, hunder.enter hall hn, ?_, fun hu => ?_⟩
    · rw [← hsplit, List.flatMap_cons, Place.within_eq]
      simp
    · rw [List.map_append]
      refine (hlisted hu).append_known fun ty hty name hname => ?_
      obtain rfl := List.mem_singleton.1 hty
      cases hn.symm.trans hname
  | @pass ty rest d name hn hm =>
    obtain ⟨place, later, rfl, rfl, rfl⟩ := List.map_eq_cons_iff.1 hmap
    obtain ⟨earlier, he, -⟩ := meet_known hm
    have hd := mem_names_of_get? he
    refine ⟨met ++ place.within, later, rfl, hunder.pass hn hd, ?_, fun hu => ?_⟩
    · rw [← hsplit, List.flatMap_cons, List.append_assoc]
    · rw [List.map_append]
      refine (hlisted hu).append_known fun ty hty name hname => ?_
      obtain ⟨below, hb, rfl⟩ := List.mem_map.1 hty
      exact hunder.known_within hall hc hu hn hd below hb name hname
  | @declare ty rest d name table hn hm =>
    obtain ⟨place, later, rfl, rfl, rfl⟩ := List.map_eq_cons_iff.1 hmap
    rcases hunder.meet_cases hc List.mem_cons_self hn replace with ⟨hk, -⟩ | ⟨hdecl, hg, hb⟩
    · cases hm.symm.trans hk
    · cases hm.symm.trans hdecl
      refine ⟨met ++ [place], place.below ++ later, by simp, hunder.declare hall hn hb, ?_,
        fun hu => ?_⟩
      · rw [← hsplit, List.flatMap_cons, Place.within_eq]
        simp
      · rw [List.map_append]
        exact (hlisted hu).append_new hn hg

theorem atPlaces_start (routes : List Route) :
    AtPlaces (Route.places routes) ⟨routes.flatMap Route.types, empty⟩ := by
  refine ⟨[], (routes.flatMap Route.types).map Place.root, ?_, ?_, ?_, fun _ => .nil⟩
  · rw [List.map_map]
    exact List.map_id _
  · refine ⟨?_, ?_, ?_, fun name ty hg => ?_, fun name ty hg => ?_⟩
    · intro p hp
      obtain ⟨ty, hty, rfl⟩ := List.mem_map.1 hp
      exact List.mem_flatMap.2 ⟨ty, hty, Place.self_mem_within _⟩
    · exact List.pairwise_map.2 (List.pairwise_of_forall fun _ _ => List.Subset.refl _)
    · intro p hp outer ho
      obtain ⟨ty, -, rfl⟩ := List.mem_map.1 hp
      cases ho
    · cases hg
    · cases hg
  · rw [List.nil_append, List.flatMap_map]
    rfl

theorem tracked_of_coherent {routes : List Route} (hc : Coherent (Route.places routes))
    (replace : Bool) :
    ∃ d, ofRoutes replace routes = .ok d ∧
      Tracked (Route.places routes) (Route.places routes) [] d := by
  have hall : ∀ q ∈ Route.places routes, ∀ c ∈ q.below, c ∈ Route.places routes :=
    fun q hq c => Route.mem_places_of_mem_below hq
  have ends := ends_registerAll replace (routes.flatMap Route.types) empty
  cases h : ofRoutes replace routes with
  | error f =>
    obtain ⟨name, -, hw⟩ := ofRoutes_error h
    obtain ⟨ty, later, ⟨met, pending, hmap, tracked⟩, hn, hm⟩ :=
      ends.invariant_of_conflict (Advances.atPlaces hall hc) hw (atPlaces_start routes)
    obtain ⟨place, rest, rfl, rfl, rfl⟩ := List.map_eq_cons_iff.1 hmap
    rcases tracked.underway.meet_cases hc List.mem_cons_self hn replace with ⟨hk, -⟩ | ⟨hd, -⟩
    · cases hm.symm.trans hk
    · cases hm.symm.trans hd
  | ok d =>
    rw [ofRoutes_ok h] at ends
    obtain ⟨met, pending, hmap, tracked⟩ :=
      ends.invariant (Advances.atPlaces hall hc) rfl (atPlaces_start routes)
    obtain rfl := List.map_eq_nil_iff.1 hmap
    obtain rfl : met = Route.places routes := by simpa using tracked.split
    exact ⟨d, rfl, tracked⟩

end Walk

theorem mem_names_of_mem_places {routes : List Route} {replace : Bool} {d : Declarations}
    (hc : Coherent (Route.places routes)) (hd : ofRoutes replace routes = .ok d)
    (h : Underway (Route.places routes) [] d) {p : Place} {name : String}
    (hp : p ∈ Route.places routes) (hn : p.ty.name? = some name) : name ∈ d.names := by
  have ends := ends_registerAll replace (routes.flatMap Route.types) empty
  rw [ofRoutes_ok hd] at ends
  obtain ⟨ty, hty, hp⟩ := List.mem_flatMap.1 hp
  have hkept := Place.within_induction
    (P := fun q => q ∈ Route.places routes ∧ ∀ other ∈ q.ty.use.names, other ∈ d.names)
    ?_ (Place.root ty) ?_ p hp
  · refine hkept.2 name ?_
    rw [Ty.names_use_of_name? hn]
    exact List.mem_singleton_self _
  · rintro q ⟨hq, hnames⟩ child hchild
    refine ⟨Route.mem_places_of_mem_below hq hchild, h.mem_names_below hc hq hnames hchild ?_⟩
    intro x hx
    cases hx
  · refine ⟨List.mem_flatMap.2 ⟨ty, hty, Place.self_mem_within _⟩, fun other ho => ?_⟩
    exact mem_names_of_ends ends rfl hty ho

/-- **Skipping loses nothing.** If the places in the types of routes are coherent, registering the
types goes through, whether or not types may be replaced. The declared names are those that occur at
any place, and a name under which a record with members occurs is declared with members. If no
record with members stands below a record of its name, names come in the order in which they first
occur, each with the type that stands there. -/
theorem skipping_loses_nothing {routes : List Route} (h : Coherent (Route.places routes))
    (replace : Bool) :
    ∃ d, ofRoutes replace routes = .ok d ∧
      (∀ name, name ∈ d.names ↔ ∃ p ∈ Route.places routes, p.ty.name? = some name) ∧
      (∀ p ∈ Route.places routes, ∀ name, p.ty.name? = some name → p.ty.hasMembers →
        ∃ ty, d.get? name = some ty ∧ ty.hasMembers) ∧
      (Unnested (Route.places routes) →
        d.names = ((Route.places routes).filterMap fun p => p.ty.name?).eraseDups ∧
        ∀ name, d.get? name = Ty.first? name ((Route.places routes).map Place.ty)) := by
  obtain ⟨d, hd, hunder, -, hlisted⟩ := tracked_of_coherent h replace
  have hnames : ∀ p ∈ Route.places routes, ∀ name, p.ty.name? = some name → name ∈ d.names :=
    fun p hp name hn => mem_names_of_mem_places h hd hunder hp hn
  refine ⟨d, hd, fun name => ⟨fun hname => ?_, ?_⟩, ?_, fun hu => ?_⟩
  · obtain ⟨ty, hg⟩ := mem_names_iff.1 hname
    obtain ⟨p, hp, rfl, hn, -⟩ := hunder.declared name ty hg
    exact ⟨p, hp, hn⟩
  · rintro ⟨p, hp, hn⟩
    exact hnames p hp name hn
  · intro p hp name hn hm
    obtain ⟨ty, hg⟩ := mem_names_iff.1 (hnames p hp name hn)
    have hb := Place.not_refersBack_of_hasMembers hm
    exact ⟨ty, hg, Ty.hasMembers_of_definition_eq (hunder.agrees h hp hn hb hg) hm⟩
  · obtain ⟨hget, horder⟩ := hlisted hu
    rw [List.filterMap_map] at horder
    exact ⟨horder, hget⟩

def ownerOf (pet : Ty) : Ty := .record "Owner" [⟨"pets", none, .array pet, false⟩]

def petOf (owner : Ty) : Ty := .record "Pet" [⟨"owner", none, owner, false⟩]

/-- A function that is given an owner, who is unrolled to a pet, and hands back a pet, which is
unrolled to an owner. -/
def adoptRoute : Route :=
  swapOf (ownerOf (petOf (.record "Owner" []))) (petOf (ownerOf (.record "Pet" [])))

/-- The pet that is handed back is known, and what is skipped below it has been declared before. -/
theorem adopt_declared_once : Coherent (Route.places [adoptRoute]) ∧
    Unnested (Route.places [adoptRoute]) ∧
    ∃ d, ofRoutes false [adoptRoute] = .ok d ∧ d.names = ["Owner", "Pet"] ∧
      d.get? "Pet" = some (petOf (.record "Owner" [])) := by
  have hc : Coherent (Route.places [adoptRoute]) := by decide
  have hu : Unnested (Route.places [adoptRoute]) := by decide
  obtain ⟨d, hd, -, -, horder⟩ := skipping_loses_nothing hc false
  obtain ⟨hnames, hget⟩ := horder hu
  exact ⟨hc, hu, d, hd, hnames.trans rfl, (hget "Pet").trans rfl⟩

end Declarations

end ApiBindings
