import ApiBindings.Ty
import Mathlib.Data.List.Perm.Basic

/-!
# Types below a type

A walk over the children of a type that goes down into each child before it turns to the next one
comes to every type below, and to each directly before the types below it (`depthFirst`). The list
`referenced` holds the same types, each as often (`referenced_perm_depthFirst`). Of a map, though,
it has the value before the types below the key. So its order is that of the walk only where that
makes no difference: the key has no types below it, or only ones that are equal to the value
(`referenced_order`).
-/

namespace ApiBindings.Ty

variable {ty key value child part : Ty} {members : List Member} {types : List Ty}

/-! ## The walk over the children -/

/-- What holds of a type if it holds of its children holds of every type. -/
theorem children_induction {P : Ty → Prop} (step : ∀ ty, (∀ child ∈ ty.children, P child) → P ty)
    (ty : Ty) : P ty :=
  step ty fun child h => by
    have := sizeOf_lt_of_mem_children h
    exact children_induction step child
termination_by sizeOf ty

/-- All types below a type, each child directly before the types below it. -/
def depthFirst (ty : Ty) : List Ty :=
  ty.children.attach.flatMap fun ⟨child, h⟩ =>
    have := sizeOf_lt_of_mem_children h
    child :: depthFirst child
termination_by sizeOf ty

theorem depthFirst_eq (ty : Ty) :
    ty.depthFirst = ty.children.flatMap fun child => child :: child.depthFirst := by
  rw [depthFirst]
  simp only [List.flatMap_subtype, List.unattach_attach]

theorem sizeOf_lt_of_mem_depthFirst (h : part ∈ ty.depthFirst) : sizeOf part < sizeOf ty := by
  induction ty using children_induction with
  | step ty ih =>
    rw [depthFirst_eq] at h
    obtain ⟨child, hchild, h⟩ := List.mem_flatMap.1 h
    have hlt := sizeOf_lt_of_mem_children hchild
    rcases List.mem_cons.1 h with rfl | h
    · exact hlt
    · exact Nat.lt_trans (ih child hchild h) hlt

theorem depthFirst_eq_nil_iff : ty.depthFirst = [] ↔ ty.children = [] := by
  rw [depthFirst_eq, List.flatMap_eq_nil_iff]
  constructor
  · intro h
    by_contra hne
    obtain ⟨child, hchild⟩ := List.exists_mem_of_ne_nil _ hne
    exact List.cons_ne_nil _ _ (h child hchild)
  · intro h child hchild
    rw [h] at hchild
    cases hchild

/-! ## The list of all types below -/

theorem referencedByMembers_eq_flatMap : ∀ members : List Member,
    referencedByMembers members = (members.map (·.ty)).flatMap fun ty => ty :: ty.referenced
  | [] => rfl
  | ⟨_, _, _, _⟩ :: members => by
    rw [referencedByMembers, referencedByMembers_eq_flatMap members]
    rfl

/-- The list goes down into each child before the next one, or it is that of a map. -/
theorem referenced_cases (ty : Ty) :
    ((∀ key value, ty ≠ map key value) ∧
      ty.referenced = ty.children.flatMap fun child => child :: child.referenced) ∨
      ∃ key value, ty = map key value := by
  cases ty with
  | primitive p => exact .inl ⟨nofun, rfl⟩
  | array element => exact .inl ⟨nofun, (List.append_nil _).symm⟩
  | map key value => exact .inr ⟨key, value, rfl⟩
  | union name cases => exact .inl ⟨nofun, rfl⟩
  | record name members => exact .inl ⟨nofun, referencedByMembers_eq_flatMap members⟩

theorem referenced_perm_depthFirst (ty : Ty) : ty.referenced.Perm ty.depthFirst := by
  induction ty using children_induction with
  | step ty ih =>
    obtain ⟨-, h⟩ | ⟨key, value, rfl⟩ := referenced_cases ty
    · rw [h, depthFirst_eq]
      exact List.Perm.flatMap_left _ fun child hchild => (ih child hchild).cons child
    · have hkey := ih key List.mem_cons_self
      have hvalue := ih value (List.mem_cons_of_mem _ List.mem_cons_self)
      rw [depthFirst_eq]
      simp only [referenced, children, List.flatMap_cons, List.flatMap_nil, List.append_nil]
      refine .cons key ?_
      calc value :: (key.referenced ++ value.referenced)
          |>.Perm (value :: (key.depthFirst ++ value.depthFirst)) := (hkey.append hvalue).cons value
        _ |>.Perm (key.depthFirst ++ value :: value.depthFirst) := List.perm_middle.symm

/-! ## The order of the list -/

theorem flatMap_eq_flatMap_iff {α β : Type} {as : List α} {f g : α → List β}
    (h : ∀ a ∈ as, (f a).length = (g a).length) :
    as.flatMap f = as.flatMap g ↔ ∀ a ∈ as, f a = g a := by
  induction as with
  | nil => simp
  | cons a as ih =>
    obtain ⟨ha, has⟩ := List.forall_mem_cons.1 h
    rw [List.flatMap_cons, List.flatMap_cons, List.forall_mem_cons, ← ih has]
    constructor
    · intro he
      exact List.append_inj he ha
    · rintro ⟨hfirst, hrest⟩
      rw [hfirst, hrest]

/-- The types of a map with this key and value are in the order of the walk: the key has nothing
below it, or only the value, which then has nothing below it either. -/
def KeepsOrder (key value : Ty) : Prop := ∀ part ∈ key.children, part = value ∧ value.children = []

theorem depthFirst_eq_nil_of_head {others others' : List Ty}
    (h : ty :: others = ty.depthFirst ++ others') : ty.depthFirst = [] := by
  cases hd : ty.depthFirst with
  | nil => rfl
  | cons part parts =>
    rw [hd] at h
    obtain ⟨rfl, -⟩ := List.cons.inj h
    have hlt : sizeOf ty < sizeOf ty := sizeOf_lt_of_mem_depthFirst (hd ▸ List.mem_cons_self)
    exact absurd hlt (Nat.lt_irrefl _)

theorem referenced_eq_nil_of_depthFirst (h : ty.depthFirst = []) : ty.referenced = [] := by
  have hperm := referenced_perm_depthFirst ty
  rw [h] at hperm
  exact hperm.eq_nil

theorem all_eq_of_shifted
    (h : value :: (types.flatMap fun child => child :: child.referenced) =
      (types.flatMap fun child => child :: child.depthFirst) ++ [value]) :
    ∀ part ∈ types, part = value ∧ value.children = [] := by
  induction types with
  | nil => simp
  | cons part types ih =>
    simp only [List.flatMap_cons, List.cons_append, List.append_assoc] at h
    obtain ⟨rfl, htail⟩ := List.cons.inj h
    have hnil := depthFirst_eq_nil_of_head htail
    rw [hnil, referenced_eq_nil_of_depthFirst hnil] at htail
    exact List.forall_mem_cons.2 ⟨⟨rfl, depthFirst_eq_nil_iff.1 hnil⟩, ih htail⟩

/-- The value can be moved in front of the types below the key only if these are all equal to it. -/
theorem keepsOrder_of_shifted (h : value :: key.referenced = key.depthFirst ++ [value]) :
    KeepsOrder key value := by
  rw [depthFirst_eq] at h
  obtain ⟨-, hkey⟩ | ⟨first, second, rfl⟩ := referenced_cases key
  · rw [hkey] at h
    exact all_eq_of_shifted h
  · -- nothing is below the first child, so that the second one comes where the walk has it
    simp only [referenced, children, List.flatMap_cons, List.flatMap_nil, List.append_nil,
      List.cons_append, List.append_assoc] at h
    obtain ⟨rfl, htail⟩ := List.cons.inj h
    have hnil := depthFirst_eq_nil_of_head htail
    apply all_eq_of_shifted
    simpa [children, referenced_eq_nil_of_depthFirst hnil] using h

theorem eq_of_mem_depthFirst (h : KeepsOrder key value) : ∀ part ∈ key.depthFirst, part = value := by
  intro part hpart
  rw [depthFirst_eq] at hpart
  obtain ⟨child, hchild, hpart⟩ := List.mem_flatMap.1 hpart
  obtain ⟨rfl, hnone⟩ := h child hchild
  rw [depthFirst_eq_nil_iff.2 hnone] at hpart
  exact List.mem_singleton.1 hpart

/-- Below such a key there is only one type, so that the list and the walk do not differ. -/
theorem KeepsOrder.exists_replicate (h : KeepsOrder key value) :
    ∃ n, key.referenced = List.replicate n value ∧ key.depthFirst = List.replicate n value := by
  have hall := eq_of_mem_depthFirst h
  have hperm := referenced_perm_depthFirst key
  rw [List.eq_replicate_of_mem hall] at hperm
  exact ⟨_, List.perm_replicate.1 hperm, List.eq_replicate_of_mem hall⟩

theorem shifted_iff :
    value :: key.referenced = key.depthFirst ++ [value] ↔ KeepsOrder key value := by
  constructor
  · exact keepsOrder_of_shifted
  · intro h
    obtain ⟨n, hreferenced, hwalk⟩ := h.exists_replicate
    rw [hreferenced, hwalk, ← List.replicate_succ, List.replicate_succ']

/-- The maps in a type all keep the order. -/
def InOrder (ty : Ty) : Prop :=
  ∀ key value, map key value ∈ ty :: ty.depthFirst → KeepsOrder key value

theorem inOrder_iff : ty.InOrder ↔
    (∀ key value, ty = map key value → KeepsOrder key value) ∧
      ∀ child ∈ ty.children, child.InOrder := by
  unfold InOrder
  conv_lhs => rw [depthFirst_eq]
  constructor
  · intro h
    refine ⟨fun key value he => h key value (he ▸ List.mem_cons_self), ?_⟩
    intro child hchild key value hm
    exact h key value (List.mem_cons_of_mem _ (List.mem_flatMap.2 ⟨child, hchild, hm⟩))
  · rintro ⟨hself, hchildren⟩ key value hm
    rcases List.mem_cons.1 hm with he | hm
    · exact hself key value he.symm
    · obtain ⟨child, hchild, hm⟩ := List.mem_flatMap.1 hm
      exact hchildren child hchild key value hm

theorem map_referenced_eq_depthFirst_iff :
    (map key value).referenced = (map key value).depthFirst ↔
      KeepsOrder key value ∧ value.referenced = value.depthFirst := by
  rw [depthFirst_eq, ← shifted_iff]
  simp only [referenced, children, List.flatMap_cons, List.flatMap_nil, List.append_nil,
    List.cons_append, List.cons_inj_right]
  constructor
  · intro h
    have hlength := (referenced_perm_depthFirst key).length_eq
    rw [← List.cons_append, List.append_cons] at h
    exact List.append_inj h (by simp [hlength])
  · rintro ⟨hkey, hvalue⟩
    rw [← List.cons_append, List.append_cons, hkey, hvalue]

/-- The list is in the order of the walk exactly if all maps keep the order. -/
theorem referenced_eq_depthFirst_iff : ty.referenced = ty.depthFirst ↔ ty.InOrder := by
  induction ty using children_induction with
  | step ty ih =>
    rw [inOrder_iff]
    obtain ⟨hnomap, h⟩ | ⟨key, value, rfl⟩ := referenced_cases ty
    · have hlength : ∀ child ∈ ty.children,
          (child :: child.referenced).length = (child :: child.depthFirst).length :=
        fun child _ => ((referenced_perm_depthFirst child).cons child).length_eq
      rw [h, depthFirst_eq, flatMap_eq_flatMap_iff hlength]
      simp only [List.cons_inj_right]
      rw [forall₂_congr ih]
      exact ⟨fun hall => ⟨fun key value he => absurd he (hnomap key value), hall⟩, And.right⟩
    · have hkey := ih key List.mem_cons_self
      have hvalue := ih value (List.mem_cons_of_mem _ List.mem_cons_self)
      rw [map_referenced_eq_depthFirst_iff, hvalue]
      constructor
      · rintro ⟨hkeeps, hv⟩
        obtain ⟨n, hreferenced, hwalk⟩ := hkeeps.exists_replicate
        have hk : key.InOrder := hkey.1 (hreferenced.trans hwalk.symm)
        refine ⟨?_, by simpa [children] using ⟨hk, hv⟩⟩
        rintro key value he
        cases he
        exact hkeeps
      · rintro ⟨hself, hchildren⟩
        exact ⟨hself key value rfl, hchildren value (List.mem_cons_of_mem _ List.mem_cons_self)⟩

/-! ## One step of the walk -/

/-- An item can be moved from the front of a list to its end only if it is all there is. -/
theorem eq_of_cons_eq_append {α : Type} {a : α} {as : List α} (h : a :: as = as ++ [a]) :
    ∀ b ∈ as, b = a := by
  induction as with
  | nil => simp
  | cons b as ih =>
    obtain ⟨rfl, htail⟩ := List.cons.inj h
    exact List.forall_mem_cons.2 ⟨rfl, ih htail⟩

theorem keepsOrder_of_eq (h : ∀ part ∈ key.depthFirst, part = value) : KeepsOrder key value := by
  intro child hchild
  rw [depthFirst_eq] at h
  have hbelow : ∀ part ∈ child :: child.depthFirst, part = value :=
    fun part hpart => h part (List.mem_flatMap.2 ⟨child, hchild, hpart⟩)
  obtain rfl : child = value := hbelow child List.mem_cons_self
  refine ⟨rfl, depthFirst_eq_nil_iff.1 (List.eq_nil_iff_forall_not_mem.2 fun part hpart => ?_)⟩
  have hlt := sizeOf_lt_of_mem_depthFirst hpart
  rw [hbelow part (List.mem_cons_of_mem _ hpart)] at hlt
  exact Nat.lt_irrefl _ hlt

/-- The list goes down into each child before the next one unless it is that of a map that does not
keep the order. -/
theorem referenced_eq_flatMap_iff :
    ty.referenced = (ty.children.flatMap fun child => child :: child.referenced) ↔
      ∀ key value, ty = map key value → KeepsOrder key value := by
  obtain ⟨hnomap, h⟩ | ⟨key, value, rfl⟩ := referenced_cases ty
  · exact ⟨fun _ key value he => absurd he (hnomap key value), fun _ => h⟩
  · have hstep : (map key value).referenced =
        ((map key value).children.flatMap fun child => child :: child.referenced) ↔
          value :: key.referenced = key.referenced ++ [value] := by
      simp only [referenced, children, List.flatMap_cons, List.flatMap_nil, List.append_nil,
        List.cons_append, List.cons_inj_right]
      rw [← List.cons_append, List.append_cons, List.append_cancel_right_eq]
    rw [hstep]
    constructor
    · intro h key' value' he
      cases he
      have hall := eq_of_cons_eq_append h
      exact keepsOrder_of_eq fun part hpart =>
        hall part ((referenced_perm_depthFirst key).mem_iff.2 hpart)
    · intro h
      obtain ⟨n, hreferenced, -⟩ := (h key value rfl).exists_replicate
      rw [hreferenced, ← List.replicate_succ, List.replicate_succ']

/-- **The list of the types below a type against a walk over its children.** The list goes down into
each child before the next one, unless the type is a map whose key has types below it that can be
told from the value. It holds what the walk comes to, each type as often, and it is in the order of
the walk exactly if there is no such map at or below the type. -/
theorem referenced_order (ty : Ty) :
    (ty.referenced = (ty.children.flatMap fun child => child :: child.referenced) ↔
      ∀ key value, ty = map key value → KeepsOrder key value) ∧
    ty.referenced.Perm ty.depthFirst ∧ (ty.referenced = ty.depthFirst ↔ ty.InOrder) :=
  ⟨referenced_eq_flatMap_iff, referenced_perm_depthFirst ty, referenced_eq_depthFirst_iff⟩

/-- Numbers under lists of texts. -/
def countsOfTags : Ty := map (array (primitive .string)) (primitive .integer)

/-- The numbers are listed before the texts, though the texts are below the lists. -/
theorem counts_before_tags :
    countsOfTags.referenced =
      [array (primitive .string), primitive .integer, primitive .string] ∧
    (countsOfTags.children.flatMap fun child => child :: child.referenced) =
      [array (primitive .string), primitive .string, primitive .integer] ∧
    ¬ ∀ ty : Ty, ty.referenced = ty.children.flatMap fun child => child :: child.referenced := by
  refine ⟨rfl, rfl, fun h => ?_⟩
  cases h countsOfTags

end ApiBindings.Ty
