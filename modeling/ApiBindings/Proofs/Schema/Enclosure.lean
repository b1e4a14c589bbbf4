import ApiBindings.Proofs.Schema.Reachable

/-!
# References back are enclosed

A type below a converted type stands at a path, and the schema has a position at the same path, from
which the type there is converted. Only the key of a map has no position.

One step down a path goes to a type that is converted with the records around it on the stack
(`Descends`). So a reference back has the name of a record on the stack or of one above it on its
path (`stub_at`), and a record with members does not come from a component on the stack
(`not_mem_nominals_at`). From scratch nothing is on the stack, so that a reference back stands below
the record that it refers to, and along a path no component becomes a record with members twice.
-/

namespace ApiBindings

/-- The type at a path, which says at every step which child to go to. -/
def Ty.at? : Ty → List Nat → Option Ty
  | ty, [] => some ty
  | ty, i :: path => ty.children[i]?.bind fun child => child.at? path

namespace Schema

/-! ## Positions at paths -/

/-- The positions of the children of the type of a layer, in order. The key of a map has none. -/
def Layer.parts : Layer → List (Option Value)
  | primitive _ => []
  | union _ => []
  | array items => [some items]
  | map values => [none, some values]
  | record properties _ => properties.map fun property => some property.2

/-- The position of a child of the type at a position. -/
def partAt? (document position : Value) (i : Nat) : Option Value :=
  match resolve document position with
  | .ok (some r) =>
    match layer r.schema "" with
    | .ok l => l.parts[i]?.join
    | .error _ => none
  | _ => none

/-- The position at a path from a position. -/
def positionAt? (document : Value) : Value → List Nat → Option Value
  | position, [] => some position
  | position, i :: path =>
    (partAt? document position i).bind fun part => positionAt? document part path

/-- The component that a position refers to. -/
def component? (document position : Value) : Option String :=
  match resolve document position with
  | .ok (some r) => r.name
  | _ => none

/-- The component that is referred to at a path from a position. -/
def componentAt? (document position : Value) (path : List Nat) : Option String :=
  (positionAt? document position path).bind (component? document)

/-- A position leads to the schema of an object without properties. -/
def IsEmptyObject (document position : Value) : Prop :=
  ∃ r entries, resolve document position = .ok (some r) ∧ r.schema = .mapping entries ∧
    (kindOf entries).isText "object" ∧ (field "properties" entries).isTrue = false

section Position

variable {document position : Value} {r : Resolved} {l : Layer} {place name : String}

theorem partAt?_eq (hr : resolve document position = .ok (some r))
    (hl : layer r.schema place = .ok l) (i : Nat) :
    partAt? document position i = l.parts[i]?.join := by
  simp only [partAt?, hr, layer_of_place hl ""]

theorem component?_eq (hr : resolve document position = .ok (some r)) :
    component? document position = r.name := by
  simp only [component?, hr]

theorem isEmptyObject_of_layer {required : List Scalar}
    (hr : resolve document position = .ok (some r))
    (hl : layer r.schema place = .ok (.record [] required)) : IsEmptyObject document position := by
  have hreads := reads_of_layer hl
  obtain ⟨entries, hs⟩ := hreads.exists_entries
  rw [hs] at hreads
  cases hreads with
  | record hk hp =>
    exact ⟨r, entries, hr, hs, isText_kindOf_iff.2 hk, hp.eq_nil_iff.1 rfl⟩

end Position

/-! ## Layers and what they become -/

theorem getElem?_of_forall₂ {α β : Type} {R : α → β → Prop} {as : List α} {bs : List β}
    (h : List.Forall₂ R as bs) {i : Nat} {b : β} (hb : bs[i]? = some b) :
    ∃ a, as[i]? = some a ∧ R a b := by
  induction h generalizing i with
  | nil => cases hb
  | cons hab _ ih =>
    cases i with
    | zero =>
      cases hb
      exact ⟨_, rfl, hab⟩
    | succ i => exact ih hb

section Assembled

variable {document position : Value} {r : Resolved} {l : Layer} {place name : String}
  {f : Value → String → Except Fault Ty} {assembled child part : Ty} {i : Nat} {path : List Nat}

theorem child_of_assemble (ha : assemble l place (fun v _ hint => f v hint) = .ok assembled)
    (hc : assembled.children[i]? = some child) :
    (child = .primitive .string ∧ l.parts[i]?.join = none) ∨
      ∃ v ∈ l.positions, l.parts[i]?.join = some v ∧ ∃ hint, f v hint = .ok child := by
  cases l with
  | primitive p => cases ha; cases hc
  | union cases => cases ha; cases hc
  | array items =>
    obtain ⟨element, he, rfl⟩ := assemble_array ha
    match i, hc with
    | 0, hc =>
      obtain rfl := Option.some.inj hc
      exact .inr ⟨items, List.mem_cons_self, rfl, _, he⟩
    | i + 1, hc => cases hc
  | map values =>
    obtain ⟨value, hv, rfl⟩ := assemble_map ha
    match i, hc with
    | 0, hc => exact .inl ⟨(Option.some.inj hc).symm, rfl⟩
    | 1, hc =>
      obtain rfl := Option.some.inj hc
      exact .inr ⟨values, List.mem_cons_self, rfl, _, hv⟩
    | i + 2, hc => cases hc
  | record properties required =>
    obtain ⟨members, rfl, hall⟩ := assemble_record ha
    rw [Ty.children, List.getElem?_map, Option.map_eq_some_iff] at hc
    obtain ⟨m, hm, rfl⟩ := hc
    obtain ⟨property, hp, -, -, hf, -⟩ := getElem?_of_forall₂ hall hm
    refine .inr ⟨property.2, List.mem_map_of_mem (List.mem_of_getElem? hp), ?_, _, hf⟩
    simp [Layer.parts, hp]

theorem name?_of_assemble (ha : assemble l place (fun v _ hint => f v hint) = .ok assembled)
    (hn : l.isNominal) : assembled.name? = some place := by
  cases l with
  | union cases => cases ha; rfl
  | record properties required =>
    obtain ⟨members, rfl, -⟩ := assemble_record ha
    rfl
  | _ => cases hn

theorem record_of_assemble {members : List Member}
    (ha : assemble l place (fun v _ hint => f v hint) = .ok (.record name members)) :
    ∃ properties required, l = .record properties required ∧
      properties.length = members.length := by
  cases l with
  | record properties required =>
    obtain ⟨members, heq, hall⟩ := assemble_record ha
    cases heq
    exact ⟨properties, required, rfl, hall.length_eq⟩
  | primitive p => cases ha
  | union cases => cases ha
  | array items =>
    obtain ⟨element, -, heq⟩ := assemble_array ha
    cases heq
  | map values =>
    obtain ⟨value, -, heq⟩ := assemble_map ha
    cases heq

theorem isNominal_of_assemble (ha : assemble l place (fun v _ hint => f v hint) = .ok assembled)
    (hm : assembled.hasMembers) : l.isNominal := by
  cases assembled with
  | record name members =>
    obtain ⟨properties, required, rfl, -⟩ := record_of_assemble ha
    rfl
  | _ => cases hm

theorem eq_of_assemble_stub (ha : assemble l place (fun v _ hint => f v hint) = .ok assembled)
    (hs : assembled.isStub) : ∃ required, l = .record [] required := by
  cases assembled with
  | record name members =>
    obtain ⟨properties, required, rfl, hlen⟩ := record_of_assemble ha
    cases members with
    | nil => exact ⟨required, by rw [List.length_eq_zero_iff.1 hlen]⟩
    | cons m members => cases hs
  | _ => cases hs

end Assembled

/-! ## One step down a path -/

section Descent

variable {document position v : Value} {stack inner : Stack} {r : Resolved} {hint name : String}
  {ty child part : Ty} {i : Nat} {path : List Nat}

theorem label_hasMembers (r : Resolved) (ty : Ty) : (r.label ty).hasMembers = ty.hasMembers := by
  unfold Resolved.label
  split
  · rfl
  · exact Ty.hasMembers_withName _ ty

theorem label_isStub (r : Resolved) (ty : Ty) : (r.label ty).isStub = ty.isStub := by
  unfold Resolved.label
  split
  · rfl
  · exact Ty.isStub_withName _ ty

theorem label_children (r : Resolved) (ty : Ty) : (r.label ty).children = ty.children := by
  unfold Resolved.label
  split
  · rfl
  · exact Ty.children_withName _ ty

theorem not_mem_nominals_of_enter (he : stack.enter r = .ok (.inside inner))
    (hn : r.name = some name) : name ∉ stack.nominals := by
  intro hm
  unfold Stack.enter at he
  rw [hn] at he
  simp only [List.contains_iff_mem.2 hm, ↓reduceIte] at he
  split at he <;> cases he

/-- Entering a component with a nominal layer puts its name on the records on the stack, and
entering anything else leaves them. -/
theorem nominals_of_enter {l : Layer} (he : stack.enter r = .ok (.inside inner))
    (hl : layer r.schema (r.place hint) = .ok l) :
    (inner.nominals = stack.nominals ∧ (l.isNominal → r.name = none)) ∨
      ∃ name, r.name = some name ∧ l.isNominal ∧ inner.nominals = name :: stack.nominals := by
  rcases inside_ok he hl with ⟨hn, rfl⟩ | ⟨name, hn, rfl⟩
  · exact .inl ⟨rfl, fun _ => hn⟩
  · cases hl' : l.isNominal with
    | false => exact .inl ⟨rfl, nofun⟩
    | true => exact .inr ⟨name, hn, rfl, rfl⟩

/-- A type directly below the type of a position is converted from a position, with the records
around it on the stack. -/
structure Descends (document : Value) (stack : Stack) (position : Value) (ty : Ty) (i : Nat)
    (inner : Stack) (v : Value) (child : Ty) : Prop where
  at?_eq : ∀ path, ty.at? (i :: path) = child.at? path
  positionAt?_eq : ∀ path, positionAt? document position (i :: path) = positionAt? document v path
  converts : ∃ hint, convertAt document inner v hint = .ok child
  keeps : stack.nominals ⊆ inner.nominals
  adds : ∀ name ∈ inner.nominals, name ∈ stack.nominals ∨ ty.hasMembers ∧ ty.name? = some name
  enters : ty.hasMembers → ∀ name, component? document position = some name →
    name ∈ inner.nominals

theorem Descends.componentAt?_eq (hd : Descends document stack position ty i inner v child)
    (path : List Nat) :
    componentAt? document position (i :: path) = componentAt? document v path := by
  rw [componentAt?, hd.positionAt?_eq]
  rfl

theorem descends_of_convertAt (h : convertAt document stack position hint = .ok ty)
    (hc : ty.children[i]? = some child) :
    (child = .primitive .string ∧ ∀ path, positionAt? document position (i :: path) = none) ∨
      ∃ inner v, Descends document stack position ty i inner v child := by
  obtain ⟨r, hr, ⟨name, he, rfl⟩ | ⟨inner, l, assembled, he, hl, ha, rfl⟩⟩ := convertAt_ok h
  · cases hc
  have hpart : ∀ path, positionAt? document position (i :: path) =
      l.parts[i]?.join.bind fun part => positionAt? document part path := fun path => by
    rw [positionAt?, partAt?_eq hr hl]
  rw [label_children] at hc
  rcases child_of_assemble ha hc with ⟨rfl, hnone⟩ | ⟨v, -, hv, hint', hconv⟩
  · exact .inl ⟨rfl, fun path => by rw [hpart, hnone]; rfl⟩
  have hat : ∀ path, (r.label assembled).at? (i :: path) = child.at? path := fun path => by
    rw [Ty.at?, label_children, hc]
    rfl
  have hposition : ∀ path, positionAt? document position (i :: path) =
      positionAt? document v path := fun path => by
    rw [hpart, hv]
    rfl
  rcases nominals_of_enter he hl with ⟨heq, hinline⟩ | ⟨name, hn, hnominal, heq⟩
  · refine .inr ⟨inner, v, hat, hposition, ⟨hint', hconv⟩, heq ▸ List.Subset.refl _,
      fun name hm => .inl (heq ▸ hm), fun hm name hn => ?_⟩
    rw [label_hasMembers] at hm
    rw [component?_eq hr, hinline (isNominal_of_assemble ha hm)] at hn
    cases hn
  · have hname : (r.label assembled).name? = some name := by
      simp [Resolved.label, hn, name?_of_assemble ha hnominal]
    have hmem : child ∈ (r.label assembled).children := by
      rw [label_children]
      exact List.mem_of_getElem? hc
    refine .inr ⟨inner, v, hat, hposition, ⟨hint', hconv⟩, heq ▸ List.subset_cons_self _ _, ?_, ?_⟩
    · intro other ho
      rcases List.mem_cons.1 (heq ▸ ho) with rfl | ho
      · exact .inr ⟨Ty.hasMembers_of_mem_children hmem hname, hname⟩
      · exact .inl ho
    · intro _ other ho
      rw [component?_eq hr] at ho
      cases hn.symm.trans ho
      rw [heq]
      exact List.mem_cons_self

/-- A converted type without members refers back or comes from an object without properties. -/
theorem stub_of_convertAt (h : convertAt document stack position hint = .ok (.record name [])) :
    IsEmptyObject document position ∨ name ∈ stack.nominals := by
  obtain ⟨r, hr, ⟨other, he, heq⟩ | ⟨inner, l, assembled, he, hl, ha, heq⟩⟩ := convertAt_ok h
  · cases heq
    exact .inr (refersBack_ok he).2
  · have hs : (r.label assembled).isStub := by rw [← heq]; rfl
    rw [label_isStub] at hs
    obtain ⟨required, rfl⟩ := eq_of_assemble_stub ha hs
    exact .inl (isEmptyObject_of_layer hr hl)

/-- A component whose record has members is none of the records on the stack. -/
theorem not_mem_nominals_of_convertAt (h : convertAt document stack position hint = .ok ty)
    (hm : ty.hasMembers) (hn : component? document position = some name) :
    name ∉ stack.nominals := by
  obtain ⟨r, hr, ⟨other, he, rfl⟩ | ⟨inner, l, assembled, he, -, -, -⟩⟩ := convertAt_ok h
  · cases hm
  · rw [component?_eq hr] at hn
    exact not_mem_nominals_of_enter he hn

end Descent

/-! ## Types at paths -/

section Path

variable {document position : Value} {stack : Stack} {hint name : String} {ty part outer : Ty}
  {upper path : List Nat}

theorem descends_of_at? {i : Nat} (h : convertAt document stack position hint = .ok ty)
    (hp : ty.at? (i :: path) = some part) :
    (part = .primitive .string ∧ positionAt? document position (i :: path) = none) ∨
      ∃ inner v child, Descends document stack position ty i inner v child ∧
        child.at? path = some part := by
  rw [Ty.at?] at hp
  obtain ⟨child, hc, hp⟩ := Option.bind_eq_some_iff.1 hp
  rcases descends_of_convertAt h hc with ⟨rfl, hnone⟩ | ⟨inner, v, hd⟩
  · cases path with
    | nil =>
      cases hp
      exact .inl ⟨rfl, hnone []⟩
    | cons j path => cases hp
  · exact .inr ⟨inner, v, child, hd, hp⟩

theorem converts_at (h : convertAt document stack position hint = .ok ty)
    (hp : ty.at? path = some part) :
    (part = .primitive .string ∧ positionAt? document position path = none) ∨
      ∃ v stack hint, positionAt? document position path = some v ∧
        convertAt document stack v hint = .ok part := by
  induction path generalizing stack position hint ty with
  | nil =>
    cases hp
    exact .inr ⟨position, stack, hint, rfl, h⟩
  | cons i path ih =>
    rcases descends_of_at? h hp with hkey | ⟨inner, v, child, hd, hp⟩
    · exact .inl hkey
    · obtain ⟨_, hconv⟩ := hd.converts
      rw [hd.positionAt?_eq]
      exact ih hconv hp

/-- A record with members and a name stands strictly above a path. -/
def Below (ty : Ty) (name : String) (path : List Nat) : Prop :=
  ∃ upper outer, upper <+: path ∧ upper ≠ path ∧ ty.at? upper = some outer ∧ outer.hasMembers ∧
    outer.name? = some name

/-- A record without members comes from an object without properties, or it has the name of a record
on the stack or of one above it. -/
theorem stub_at (h : convertAt document stack position hint = .ok ty)
    (hp : ty.at? path = some (.record name [])) :
    (∃ v, positionAt? document position path = some v ∧ IsEmptyObject document v) ∨
      name ∈ stack.nominals ∨ Below ty name path := by
  induction path generalizing stack position hint ty with
  | nil =>
    cases hp
    rcases stub_of_convertAt h with hempty | hm
    · exact .inl ⟨position, rfl, hempty⟩
    · exact .inr (.inl hm)
  | cons i path ih =>
    rcases descends_of_at? h hp with ⟨hkey, -⟩ | ⟨inner, v, child, hd, hp⟩
    · cases hkey
    obtain ⟨_, hconv⟩ := hd.converts
    rw [hd.positionAt?_eq]
    rcases ih hconv hp with hempty | hm | ⟨upper, outer, hle, hne, hat, hmem, hname⟩
    · exact .inl hempty
    · rcases hd.adds name hm with hm | ⟨hmem, hname⟩
      · exact .inr (.inl hm)
      · exact .inr (.inr ⟨[], ty, List.nil_prefix, by simp, rfl, hmem, hname⟩)
    · refine .inr (.inr ⟨i :: upper, outer, ?_, ?_, ?_, hmem, hname⟩)
      · exact (List.prefix_cons_inj i).2 hle
      · simpa using hne
      · rw [hd.at?_eq]
        exact hat

theorem not_mem_nominals_at (h : convertAt document stack position hint = .ok ty)
    (hp : ty.at? path = some part) (hm : part.hasMembers)
    (hc : componentAt? document position path = some name) : name ∉ stack.nominals := by
  induction path generalizing stack position hint ty with
  | nil =>
    cases hp
    exact not_mem_nominals_of_convertAt h hm hc
  | cons i path ih =>
    rcases descends_of_at? h hp with ⟨rfl, -⟩ | ⟨inner, v, child, hd, hp⟩
    · cases hm
    obtain ⟨_, hconv⟩ := hd.converts
    rw [hd.componentAt?_eq] at hc
    exact fun hstack => ih hconv hp hc (hd.keeps hstack)

/-- A component does not become a record with members below a record with members that comes from
it. -/
theorem componentAt?_ne (h : convertAt document stack position hint = .ok ty)
    (hle : upper <+: path) (hne : upper ≠ path) (ho : ty.at? upper = some outer)
    (hp : ty.at? path = some part) (hom : outer.hasMembers) (hm : part.hasMembers)
    (hc : componentAt? document position upper = some name) :
    componentAt? document position path ≠ some name := by
  induction path generalizing stack position hint ty upper with
  | nil => exact absurd (List.prefix_nil.1 hle) hne
  | cons i path ih =>
    rcases descends_of_at? h hp with ⟨rfl, -⟩ | ⟨inner, v, child, hd, hat⟩
    · cases hm
    obtain ⟨_, hconv⟩ := hd.converts
    rw [hd.componentAt?_eq]
    rcases List.prefix_cons_iff.1 hle with rfl | ⟨inside, rfl, hinside⟩
    · obtain rfl : ty = outer := Option.some.inj ho
      intro hsame
      exact not_mem_nominals_at hconv hat hm hsame (hd.enters hom name hc)
    · rw [hd.at?_eq] at ho
      rw [hd.componentAt?_eq] at hc
      exact ih hconv hinside (by simpa using hne) ho hat hc

end Path

/-- **References back are enclosed.** In a type converted from scratch, every type is the conversion
of the position at its path, keys of maps aside; a record without members comes from an object
without properties or stands strictly below a record of its name that has members; and a component
becomes a record with members at most once along a path. -/
theorem references_back_enclosed {document position : Value} {hint : String} {ty : Ty}
    (h : convertPosition document position hint = .ok ty) :
    (∀ path part, ty.at? path = some part →
      (part = .primitive .string ∧ positionAt? document position path = none) ∨
        ∃ v stack hint, positionAt? document position path = some v ∧
          convertAt document stack v hint = .ok part) ∧
    (∀ path name, ty.at? path = some (.record name []) →
      (∃ v, positionAt? document position path = some v ∧ IsEmptyObject document v) ∨
        Below ty name path) ∧
    ∀ upper path outer part name, upper <+: path → upper ≠ path → ty.at? upper = some outer →
      ty.at? path = some part → outer.hasMembers → part.hasMembers →
        componentAt? document position upper = some name →
          componentAt? document position path ≠ some name := by
  refine ⟨fun path part => converts_at h, fun path name hp => ?_, ?_⟩
  · exact (stub_at h hp).imp_right fun hback => hback.resolve_left List.not_mem_nil
  · intro upper path outer part name hle hne ho hp hom hm hc
    exact componentAt?_ne h hle hne ho hp hom hm hc

/-- In the array of nodes a node refers back to the node that it stands in, and its position is a
reference to the component of nodes, which has properties. -/
theorem child_enclosed_by_node :
    ∃ ty, convertPosition treeDocument (referenceTo "NodeList") "root" = .ok ty ∧
      ty.at? [0, 0, 0] = some (.record "Node" []) ∧ Below ty "Node" [0, 0, 0] ∧
      componentAt? treeDocument (referenceTo "NodeList") [0, 0, 0] = some "Node" := by
  have hwithin : convertWithin treeDocument 4 [] (referenceTo "NodeList") "root" = reached (.ok
      (.array (.record "Node" [⟨"children", none, .array (.record "Node" []), true⟩]))) := rfl
  have hconverts := convertPosition_of_reached hwithin
  have hposition : positionAt? treeDocument (referenceTo "NodeList") [0, 0, 0] =
      some (referenceTo "Node") := rfl
  obtain ⟨-, hback, -⟩ := references_back_enclosed hconverts
  refine ⟨_, hconverts, rfl, (hback [0, 0, 0] "Node" rfl).resolve_left ?_, rfl⟩
  rintro ⟨v, hv, r, entries, hr, hs, -, hempty⟩
  cases hposition.symm.trans hv
  cases resolve_node.symm.trans hr
  cases hs
  cases hempty

end Schema

end ApiBindings
