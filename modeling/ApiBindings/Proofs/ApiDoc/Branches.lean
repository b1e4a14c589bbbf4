import ApiBindings.ApiDoc.Record
import ApiBindings.Proofs.FirstAppearance

/-!
# The tree of a list of fields

The tree is built by placing one declaration after the other. It can be told from the list at once:
the branches are the keys that the paths start with, in the order of first mention, and each branch
has the last declaration at its key and the tree of what is placed below the key (`treeOf_eq`).
-/

namespace ApiBindings.ApiDoc

/-- A declaration and the path at which it is placed. -/
abbrev Placement := List String × Declaration

/-- The tree that placements make up, one after the other. -/
def treeOf (placed : List Placement) : List (String × Branch) :=
  placed.foldl (fun branches p => place p.2 p.1 branches) []

/-- What is placed at a path and below it, told from there. -/
def below (path : List String) (placed : List Placement) : List Placement :=
  placed.filterMap fun p => (p.1.dropPrefix? path).map fun rest => (rest, p.2)

/-- The keys that come after a path, in the order of their first mention. -/
def mentioned (path : List String) (placed : List Placement) : List String :=
  ((below path placed).filterMap fun p => p.1.head?).eraseDups

/-- The last declaration at a path. -/
def declaredAt (path : List String) (placed : List Placement) : Option Declaration :=
  ((placed.filter fun p => p.1 = path).map (·.2)).getLast?

/-! ## What is placed below a path -/

section Placements

variable {placed : List Placement} {p : Placement} {path rest : List String} {key : String}
  {declaration : Declaration}

theorem nodup_mentioned (path : List String) (placed : List Placement) :
    (mentioned path placed).Nodup := nodup_eraseDups _

theorem below_append (path : List String) (placed more : List Placement) :
    below path (placed ++ more) = below path placed ++ below path more :=
  List.filterMap_append

@[simp] theorem below_nil (placed : List Placement) : below [] placed = placed := by
  simp [below]

theorem below_cons (key : String) (path : List String) (placed : List Placement) :
    below (key :: path) placed = below path (below [key] placed) := by
  unfold below
  rw [List.filterMap_filterMap]
  congr 1
  funext ⟨full, declaration⟩
  cases full with
  | nil => rfl
  | cons first rest =>
    by_cases h : first = key
    · simp [List.dropPrefix?, h]
    · simp [List.dropPrefix?, h]

theorem mem_below_iff :
    (rest, declaration) ∈ below path placed ↔ (path ++ rest, declaration) ∈ placed := by
  simp [below, List.dropPrefix?_eq_some_iff]

theorem mem_mentioned_iff :
    key ∈ mentioned path placed ↔ ∃ p ∈ placed, path ++ [key] <+: p.1 := by
  unfold mentioned
  rw [List.mem_eraseDups, List.mem_filterMap]
  constructor
  · rintro ⟨⟨full, declaration⟩, hm, hhead⟩
    obtain ⟨rest, rfl⟩ := List.head?_eq_some_iff.1 hhead
    exact ⟨_, mem_below_iff.1 hm, ⟨rest, by simp⟩⟩
  · rintro ⟨⟨full, declaration⟩, hm, rest, rfl⟩
    exact ⟨(key :: rest, declaration), mem_below_iff.2 (by simpa using hm), rfl⟩

theorem mentioned_cons (key : String) (path : List String) (placed : List Placement) :
    mentioned (key :: path) placed = mentioned path (below [key] placed) := by
  unfold mentioned
  rw [below_cons]

theorem declaredAt_cons (key : String) (path : List String) (placed : List Placement) :
    declaredAt (key :: path) placed = declaredAt path (below [key] placed) := by
  have hone : ∀ p : Placement, ((below [key] [p]).filter fun q => q.1 = path).map (·.2) =
      ([p].filter fun q => q.1 = key :: path).map (·.2) := by
    rintro ⟨full, declaration⟩
    cases full with
    | nil => simp [below, List.dropPrefix?]
    | cons first rest =>
      by_cases hk : first = key
      · by_cases hr : rest = path
        · simp [below, List.dropPrefix?, hk, hr]
        · simp [below, List.dropPrefix?, hk, hr]
      · simp [below, List.dropPrefix?, hk]
  unfold declaredAt
  congr 1
  induction placed with
  | nil => rfl
  | cons p placed ih =>
    rw [show p :: placed = [p] ++ placed from rfl, below_append, List.filter_append,
      List.filter_append, List.map_append, List.map_append, ih, hone]

theorem mentioned_append (path rest : List String) (placed : List Placement) :
    mentioned (path ++ rest) placed = mentioned rest (below path placed) := by
  induction path generalizing placed with
  | nil => rw [List.nil_append, below_nil]
  | cons key path ih => rw [List.cons_append, mentioned_cons, ih, ← below_cons]

theorem declaredAt_append (path rest : List String) (placed : List Placement) :
    declaredAt (path ++ rest) placed = declaredAt rest (below path placed) := by
  induction path generalizing placed with
  | nil => rw [List.nil_append, below_nil]
  | cons key path ih => rw [List.cons_append, declaredAt_cons, ih, ← below_cons]

theorem declaredAt_append_singleton (path : List String) (placed : List Placement) (p : Placement) :
    declaredAt path (placed ++ [p]) = if p.1 = path then some p.2 else declaredAt path placed := by
  unfold declaredAt
  by_cases h : p.1 = path
  · simp [h]
  · simp [h]

theorem mem_of_declaredAt (h : declaredAt path placed = some declaration) :
    (path, declaration) ∈ placed := by
  have hm := List.mem_of_getLast? h
  simpa using hm

end Placements

/-! ## The tree -/

namespace Branch

/-- Places a declaration at a path from a branch, which is new if there is none so far. -/
def extend (declaration : Declaration) : List String → Option Branch → Branch
  | [], b => .mk (some declaration) (b.getD .empty).nested
  | key :: rest, b =>
    .mk (b.getD .empty).declaration (place declaration (key :: rest) (b.getD .empty).nested)

theorem extend_none (declaration : Declaration) (path : List String) :
    extend declaration path none = extend declaration path (some .empty) := by
  cases path with
  | nil => rfl
  | cons key rest => rfl

end Branch

section Tree

variable {placed : List Placement} {key : String}

theorem place_cons (declaration : Declaration) (key : String) (rest : List String)
    (branches : List (String × Branch)) :
    place declaration (key :: rest) branches =
      Table.update key (Branch.extend declaration rest) branches := by
  cases rest with
  | nil => rfl
  | cons next rest => rfl

theorem treeOf_append_singleton (placed : List Placement) (p : Placement) :
    treeOf (placed ++ [p]) = place p.2 p.1 (treeOf placed) := by
  rw [treeOf, List.foldl_append]
  rfl

/-- The branch at a key. -/
def branchAt (key : String) (placed : List Placement) : Branch :=
  .mk (declaredAt [key] placed) (treeOf (below [key] placed))

theorem branchAt_of_not_mem (h : key ∉ mentioned [] placed) : branchAt key placed = .empty := by
  have hnone : ∀ rest declaration, (key :: rest, declaration) ∉ placed := by
    intro rest declaration hm
    exact h (mem_mentioned_iff.2 ⟨_, hm, by simp⟩)
  have hdeclared : declaredAt [key] placed = none := by
    rw [Option.eq_none_iff_forall_ne_some]
    exact fun declaration hd => hnone [] declaration (mem_of_declaredAt hd)
  have hbelow : below [key] placed = [] := by
    rw [List.eq_nil_iff_forall_not_mem]
    exact fun ⟨rest, declaration⟩ hm => hnone rest declaration (mem_below_iff.1 hm)
  rw [branchAt, hdeclared, hbelow]
  rfl

theorem branchAt_append_singleton (key other : String) (rest : List String)
    (declaration : Declaration) (placed : List Placement) :
    branchAt other (placed ++ [(key :: rest, declaration)]) =
      if other = key then Branch.extend declaration rest (some (branchAt key placed))
      else branchAt other placed := by
  unfold branchAt
  rw [declaredAt_append_singleton, below_append]
  by_cases ho : other = key
  · subst ho
    have hbelow : below [other] [(other :: rest, declaration)] = [(rest, declaration)] := by
      simp [below, List.dropPrefix?]
    rw [hbelow, treeOf_append_singleton, if_pos rfl]
    cases rest with
    | nil => simp [Branch.extend, Branch.nested, place]
    | cons next rest => simp [Branch.extend, Branch.nested, Branch.declaration]
  · have hne : ¬ key = other := fun h => ho h.symm
    have hbelow : below [other] [(key :: rest, declaration)] = [] := by
      simp [below, List.dropPrefix?, hne]
    simp [hbelow, ho, hne]

/-- A path adds the key that it starts with to the keys mentioned, unless it is there. -/
theorem mentioned_append_singleton (key : String) (rest : List String) (declaration : Declaration)
    (placed : List Placement) :
    mentioned [] (placed ++ [(key :: rest, declaration)]) =
      if key ∈ mentioned [] placed then mentioned [] placed else mentioned [] placed ++ [key] := by
  unfold mentioned
  simp only [below_nil, List.filterMap_append, List.mem_eraseDups]
  exact eraseDups_append_singleton _ key

/-- The tree has a branch for every key that a path starts with, in the order of first mention. -/
theorem treeOf_eq (placed : List Placement) :
    treeOf placed = (mentioned [] placed).map fun key => (key, branchAt key placed) := by
  induction placed using List.reverseRecOn with
  | nil => rfl
  | append_singleton placed p ih =>
    rw [treeOf_append_singleton, ih]
    obtain ⟨path, declaration⟩ := p
    cases path with
    | nil =>
      -- a declaration at the empty path is part of no branch
      have hkeys : mentioned [] (placed ++ [([], declaration)]) = mentioned [] placed := by
        unfold mentioned
        rw [below_nil, below_nil, List.filterMap_append]
        exact congrArg List.eraseDups (List.append_nil _)
      have hbranch : ∀ key,
          branchAt key (placed ++ [([], declaration)]) = branchAt key placed := by
        intro key
        have hbelow : below [key] (placed ++ [([], declaration)]) = below [key] placed := by
          rw [below_append]
          exact List.append_nil _
        rw [branchAt, declaredAt_append_singleton, hbelow]
        rfl
      simp only [hkeys, hbranch]
      rfl
    | cons key rest =>
      rw [place_cons, Table.update_map (nodup_mentioned _ _), mentioned_append_singleton]
      apply List.map_congr_left
      intro other _
      rw [branchAt_append_singleton]
      by_cases hm : key ∈ mentioned [] placed
      · rw [if_pos hm]
      · rw [if_neg hm, branchAt_of_not_mem hm, Branch.extend_none]

end Tree

end ApiBindings.ApiDoc
