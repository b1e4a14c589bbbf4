import ApiBindings.Proofs.Declarations.Walk
import ApiBindings.Source.Language

/-!
# No dangling reference

Where a type is used, source text spells the names in its use. A table is closed if every name that
its definitions spell is declared in it.

A table is not closed while a walk goes on: a definition is written before its parts are visited,
and it may be replaced before all of them are. But a name that is spelled and not yet declared is
always promised, that is spelled by a type that is yet to be visited (`Settled`), and no step takes
a promise back (`Advances.promised_subset`). At the end of a walk nothing is left to be visited.
-/

namespace ApiBindings

/-! ## The names in a use -/

/-- The names in a use, from left to right. -/
def Use.names : Use → List String
  | primitive _ => []
  | array element => element.names
  | map key value => key.names ++ value.names
  | named name => [name]

theorem Ty.names_use_of_name? {ty : Ty} {name : String} (h : ty.name? = some name) :
    ty.use.names = [name] := by
  cases ty <;> simp only [Ty.name?, Option.some.injEq, reduceCtorEq] at h
  all_goals rw [Ty.use, Use.names, h]

theorem Ty.names_use_of_unnamed {ty : Ty} (h : ty.name? = none) :
    ty.use.names = ty.children.flatMap (·.use.names) := by
  cases ty with
  | primitive p => rfl
  | array element => simp [Ty.use, Ty.children, Use.names]
  | map key value => simp [Ty.use, Ty.children, Use.names]
  | union name cases => cases h
  | record name members => cases h

/-- A use in source text. -/
def Source.Language.useRef (language : Language) : Use → String
  | .primitive p => language.primitiveName p
  | .array element => language.arrayOf (language.useRef element)
  | .map key value => language.mapOf (language.useRef key) (language.useRef value)
  | .named name => language.typeName name

/-- Source text spells a type by its use, and so by the names in its use. -/
theorem Source.Language.typeRef_eq_useRef (language : Language) (ty : Ty) :
    language.typeRef ty = language.useRef ty.use := by
  cases ty with
  | array element => rw [typeRef, Ty.use, useRef, typeRef_eq_useRef language element]
  | map key value =>
    rw [typeRef, Ty.use, useRef, typeRef_eq_useRef language key, typeRef_eq_useRef language value]
  | primitive p => rfl
  | union name cases => rfl
  | record name members => rfl

namespace Declarations

/-- Every name in the use of a part of a declared type is declared. -/
def Closed (d : Declarations) : Prop :=
  ∀ e ∈ d.entries, ∀ part ∈ e.2.children, ∀ name ∈ part.use.names, name ∈ d.names

theorem closed_empty : empty.Closed := by
  intro e he
  cases he

/-! ## Promises -/

/-- The names that are declared, or will be when the pending types are visited. -/
def promised (p : Progress) : List String :=
  p.table.names ++ p.pending.flatMap (·.use.names)

@[simp] theorem promised_done (d : Declarations) : promised ⟨[], d⟩ = d.names := by simp [promised]

theorem names_subset_promised (p : Progress) : p.table.names ⊆ promised p :=
  List.subset_append_left _ _

theorem mem_promised_of_pending {p : Progress} {ty : Ty} {name : String} (ht : ty ∈ p.pending)
    (hn : name ∈ ty.use.names) : name ∈ promised p :=
  List.mem_append_right _ (List.mem_flatMap.2 ⟨ty, ht, hn⟩)

/-- A promise is kept once the name at the head of the pending types is declared, and the promises
of the types after it go on. -/
theorem promised_subset_of_declared {ty : Ty} {rest later : List Ty} {d table : Declarations}
    {name : String} (hn : ty.name? = some name) (hd : name ∈ table.names)
    (ht : d.names ⊆ table.names) (hr : rest ⊆ later) :
    promised ⟨ty :: rest, d⟩ ⊆ promised ⟨later, table⟩ := by
  intro other h
  rcases List.mem_append.1 h with h | h
  · exact names_subset_promised _ (ht h)
  obtain ⟨u, hu, ho⟩ := List.mem_flatMap.1 h
  rcases List.mem_cons.1 hu with rfl | hu
  · rw [Ty.names_use_of_name? hn, List.mem_singleton] at ho
    exact names_subset_promised _ (ho ▸ hd)
  · exact mem_promised_of_pending (hr hu) ho

/-- No step takes a promise back. -/
theorem Advances.promised_subset {replace : Bool} {p q : Progress} (h : Advances replace p q) :
    promised p ⊆ promised q := by
  cases h with
  | enter hn =>
    simp only [promised, List.flatMap_cons, List.flatMap_append, Ty.names_use_of_unnamed hn]
    exact List.Subset.refl _
  | pass hn hm =>
    obtain ⟨earlier, he, -⟩ := meet_known hm
    exact promised_subset_of_declared hn (mem_names_of_get? he) (List.Subset.refl _)
      (List.Subset.refl _)
  | declare hn hm =>
    obtain ⟨rfl, -⟩ := meet_declared hm
    exact promised_subset_of_declared hn (mem_names_declare.2 (.inl rfl)) names_subset_declare
      (List.subset_append_right _ _)

/-- Every name that a definition spells is promised. -/
def Settled (p : Progress) : Prop :=
  ∀ e ∈ p.table.entries, ∀ part ∈ e.2.children, ∀ name ∈ part.use.names, name ∈ promised p

theorem settled_done {d : Declarations} : Settled ⟨[], d⟩ ↔ d.Closed := by
  simp [Settled, Closed]

theorem Closed.settled {d : Declarations} (h : d.Closed) (tys : List Ty) : Settled ⟨tys, d⟩ :=
  fun e he part hp name hn => names_subset_promised _ (h e he part hp name hn)

theorem Advances.settled {replace : Bool} {p q : Progress} (h : Advances replace p q)
    (hp : Settled p) : Settled q := by
  have kept := h.promised_subset
  cases h with
  | enter hn => exact fun e he part hc name hm => kept (hp e he part hc name hm)
  | pass hn hm => exact fun e he part hc name hm => kept (hp e he part hc name hm)
  | declare hn hm =>
    obtain ⟨rfl, -⟩ := meet_declared hm
    intro e he part hc name hmem
    rcases eq_or_mem_of_mem_declare he with rfl | he
    · exact mem_promised_of_pending (List.mem_append_left _ hc) hmem
    · exact kept (hp e he part hc name hmem)

/-! ## Whole walks -/

theorem closed_of_ends {replace : Bool} {tys : List Ty} {d : Declarations} {w : Walk}
    (h : Ends replace ⟨tys, d⟩ [] w) (hw : w.conflict = none) (hd : d.Closed) : w.table.Closed :=
  settled_done.1 (h.invariant Advances.settled hw (hd.settled tys))

theorem mem_names_of_ends {replace : Bool} {tys : List Ty} {d : Declarations} {w : Walk}
    (h : Ends replace ⟨tys, d⟩ [] w) (hw : w.conflict = none) {ty : Ty} (ht : ty ∈ tys)
    {name : String} (hn : name ∈ ty.use.names) : name ∈ w.table.names := by
  have kept : name ∈ promised ⟨[], w.table⟩ :=
    h.invariant (fun step hp => step.promised_subset hp) hw (mem_promised_of_pending ht hn)
  rwa [promised_done] at kept

/-- **No dangling reference.** Every name in the use of a type of a route is declared, and a table
is closed that is made from routes or by any registrations that go through, however the rule about
replacing changes between them. Source text spells a type by its use. -/
theorem no_dangling_reference :
    (∀ (replace : Bool) (routes : List Route) (d : Declarations),
      ofRoutes replace routes = .ok d →
        (∀ r ∈ routes, ∀ ty ∈ r.types, ∀ name ∈ ty.use.names, name ∈ d.names) ∧ d.Closed) ∧
    (∀ (replace : Bool) (actions : List Registry.Action) (last : Registry),
      Registry.performAll ⟨empty, replace⟩ actions = .ok last → last.declarations.Closed) ∧
    ∀ (language : Source.Language) (ty : Ty), language.typeRef ty = language.useRef ty.use := by
  refine ⟨?_, ?_, Source.Language.typeRef_eq_useRef⟩
  · intro replace routes d h
    have ends := ends_registerAll replace (routes.flatMap Route.types) empty
    rw [ofRoutes_ok h] at ends
    refine ⟨?_, closed_of_ends ends rfl closed_empty⟩
    intro r hr ty ht name hn
    exact mem_names_of_ends ends rfl (List.mem_flatMap.2 ⟨r, hr, ht⟩) hn
  · intro replace actions last h
    refine Registry.invariant_of_performAll ?_ h closed_empty
    intro replace ty d hw hd
    exact closed_of_ends (ends_register replace ty [] d) hw hd

/-- A record whose members have the given types. -/
def nestOf (name : String) (parts : List Ty) : Ty :=
  .record name (parts.map fun part => ⟨"part", none, part, false⟩)

/-- What is left of a nest that is replaced twice while its parts are visited. -/
def nestTable : Declarations :=
  ⟨[("Leaf", nestOf "Leaf" [.primitive .string]), ("Nest", nestOf "Nest" [.union "Kind" ["a"]]),
    ("Kind", .union "Kind" ["a"])]⟩

theorem closed_after_replacement :
    Registry.performAll ⟨empty, false⟩
      [.register (nestOf "Leaf" []), .setReplace true,
        .register (nestOf "Nest" [nestOf "Nest" [.array (nestOf "Leaf" [.primitive .string])],
          .map (.primitive .string) (nestOf "Nest" [.union "Kind" ["a"]])])] =
        .ok ⟨nestTable, true⟩ ∧ nestTable.Closed :=
  ⟨rfl, no_dangling_reference.2.1 false
    [.register (nestOf "Leaf" []), .setReplace true,
      .register (nestOf "Nest" [nestOf "Nest" [.array (nestOf "Leaf" [.primitive .string])],
        .map (.primitive .string) (nestOf "Nest" [.union "Kind" ["a"]])])] ⟨nestTable, true⟩ rfl⟩

end Declarations

end ApiBindings
