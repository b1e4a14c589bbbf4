import ApiBindings.Proofs.OpenApi.Bodies
import ApiBindings.Proofs.OpenApi.Parameters
import Mathlib.Algebra.Order.BigOperators.Group.List
import Mathlib.Algebra.Order.Group.Nat
import Mathlib.Data.List.Perm.Subperm

/-!
# Placeholders of a path

A path may have names in braces anywhere between its slashes. For the URL every opening brace
becomes a colon and every closing brace goes away, and then a part between slashes that starts with
a colon is a parameter as a whole. So the names in braces are the parameters of the URL if every
part fits: it has no name in braces, or nothing but one (`toList_partParameter?_of_fits`).

A part that does not fit may be a parameter of a name that another part has in braces. This does not
happen if the names are all different: a parameter is never shorter than a name in its part, and
only as long if the part fits (`fits_of_subset`).
-/

namespace ApiBindings.OpenApi

/-! ## Parts of a path -/

/-- What a character of a path turns into in the URL. -/
def unbrace (c : Char) : List Char := if c == '{' then [':'] else if c == '}' then [] else [c]

/-- What a part of a path turns into in the URL. -/
def unbraced (cs : List Char) : List Char := cs.flatMap unbrace

/-- The parameter that a part of a path turns into. -/
def partParameter? (part : List Char) : Option (List Char) :=
  match unbraced part with
  | ':' :: name => some name
  | _ => none

/-- What stands before the first brace, if that is a closing one. -/
def nameBefore? : List Char → Option (List Char)
  | [] => none
  | c :: cs =>
    if c == '}' then some []
    else if c == '{' then none
    else (nameBefore? cs).map (c :: ·)

/-- The names that stand in braces, without braces in between. -/
def bracedNames : List Char → List (List Char)
  | [] => []
  | c :: cs => (if c == '{' then (nameBefore? cs).toList else []) ++ bracedNames cs

/-- A part fits if it has no name in braces and is no parameter, or if it is a name in braces with
nothing around it, stray closing braces aside. -/
def Fits (part : List Char) : Prop :=
  (bracedNames part = [] ∧ partParameter? part = none) ∨
    ∃ before name after, part = before ++ '{' :: (name ++ '}' :: after) ∧ '{' ∉ name ∧ '}' ∉ name ∧
      ∀ c ∈ before ++ after, c = '}'

variable {path : String} {part cs name : List Char}

@[simp] theorem unbraced_cons (c : Char) (cs : List Char) :
    unbraced (c :: cs) = unbrace c ++ unbraced cs := rfl

theorem unbraced_append (cs ds : List Char) : unbraced (cs ++ ds) = unbraced cs ++ unbraced ds :=
  List.flatMap_append

theorem unbraced_of_not_mem (hopen : '{' ∉ cs) (hclose : '}' ∉ cs) : unbraced cs = cs := by
  induction cs with
  | nil => rfl
  | cons c cs ih =>
    rw [List.mem_cons, not_or] at hopen hclose
    have hc : unbrace c = [c] := by simp [unbrace, Ne.symm hopen.1, Ne.symm hclose.1]
    rw [unbraced_cons, hc, ih hopen.2 hclose.2]
    rfl

theorem unbrace_eq_nil_iff {c : Char} : unbrace c = [] ↔ c = '}' := by
  by_cases hopen : c = '{'
  · subst hopen
    decide
  · simp [unbrace, hopen]

theorem unbraced_eq_nil_iff : unbraced cs = [] ↔ ∀ c ∈ cs, c = '}' := by
  simp [unbraced, unbrace_eq_nil_iff]

theorem split_unbraced (cs : List Char) :
    Text.split '/' (unbraced cs) = (Text.split '/' cs).map unbraced := by
  induction cs with
  | nil => rfl
  | cons c cs ih =>
    obtain ⟨w, ws, hsplit⟩ := Text.exists_cons_of_split '/' cs
    by_cases hslash : c = '/'
    · subst hslash
      have hcons : unbraced ('/' :: cs) = '/' :: unbraced cs := rfl
      rw [hcons, Text.split_cons_self, Text.split_cons_self, ih]
      rfl
    · have hnone : '/' ∉ unbrace c := by
        unfold unbrace
        split_ifs
        · decide
        · decide
        · simpa using Ne.symm hslash
      rw [hsplit] at ih
      rw [unbraced_cons, Text.split_append_of_not_mem hnone ih, Text.split_cons_of_ne hslash hsplit]
      rfl

theorem nameBefore?_eq_some_iff :
    nameBefore? cs = some name ↔ name ++ ['}'] <+: cs ∧ '{' ∉ name ∧ '}' ∉ name := by
  induction cs generalizing name with
  | nil => simp [nameBefore?]
  | cons c cs ih =>
    cases name with
    | nil =>
      by_cases hclose : c = '}'
      · simp [nameBefore?, hclose]
      · by_cases hopen : c = '{'
        · simp [nameBefore?, hopen]
        · simp [nameBefore?, hclose, hopen, Ne.symm hclose]
    | cons d name =>
      rw [List.cons_append, List.cons_prefix_cons, List.mem_cons, List.mem_cons, not_or, not_or]
      by_cases hclose : c = '}'
      · subst hclose
        have hnone : nameBefore? ('}' :: cs) ≠ some (d :: name) := by simp [nameBefore?]
        refine iff_of_false hnone ?_
        rintro ⟨⟨rfl, -⟩, -, hd, -⟩
        exact hd rfl
      · by_cases hopen : c = '{'
        · subst hopen
          refine iff_of_false nofun ?_
          rintro ⟨⟨rfl, -⟩, ⟨hd, -⟩, -⟩
          exact hd rfl
        · have hmap : nameBefore? (c :: cs) = some (d :: name) ↔
              nameBefore? cs = some name ∧ c = d := by
            simp [nameBefore?, hclose, hopen]
          rw [hmap, ih]
          constructor
          · rintro ⟨⟨hstart, hnone, hnone'⟩, rfl⟩
            exact ⟨⟨rfl, hstart⟩, ⟨Ne.symm hopen, hnone⟩, Ne.symm hclose, hnone'⟩
          · rintro ⟨⟨rfl, hstart⟩, ⟨-, hnone⟩, -, hnone'⟩
            exact ⟨⟨hstart, hnone, hnone'⟩, rfl⟩

theorem mem_bracedNames_iff :
    name ∈ bracedNames cs ↔ '{' :: (name ++ ['}']) <:+: cs ∧ '{' ∉ name ∧ '}' ∉ name := by
  induction cs with
  | nil => simp [bracedNames]
  | cons c cs ih =>
    have hhere : name ∈ (if c == '{' then (nameBefore? cs).toList else []) ↔
        '{' = c ∧ nameBefore? cs = some name := by
      by_cases hopen : c = '{'
      · simp [hopen]
      · simp [hopen, Ne.symm hopen]
    rw [bracedNames, List.mem_append, hhere, ih, nameBefore?_eq_some_iff, List.infix_cons_iff,
      List.cons_prefix_cons]
    tauto

/-! ## Parts that fit -/

theorem partParameter?_eq_some_iff : partParameter? part = some name ↔ unbraced part = ':' :: name := by
  unfold partParameter?
  split
  · rename_i h
    simp [h]
  · rename_i hnone
    exact iff_of_false nofun (hnone name)

theorem unbraced_around (hopen : '{' ∉ name) (hclose : '}' ∉ name) (before after : List Char) :
    unbraced (before ++ '{' :: (name ++ '}' :: after)) =
      unbraced before ++ ':' :: (name ++ unbraced after) := by
  rw [unbraced_append, unbraced_cons, unbraced_append, unbraced_cons, unbraced_of_not_mem hopen hclose]
  rfl

theorem bracedNames_of_not_mem (h : '{' ∉ cs) : bracedNames cs = [] := by
  rw [List.eq_nil_iff_forall_not_mem]
  intro name hname
  exact h ((mem_bracedNames_iff.1 hname).1.subset List.mem_cons_self)

theorem bracedNames_append_of_not_mem (h : '{' ∉ cs) (ds : List Char) :
    bracedNames (cs ++ ds) = bracedNames ds := by
  induction cs with
  | nil => rfl
  | cons c cs ih =>
    rw [List.mem_cons, not_or] at h
    rw [List.cons_append, bracedNames, if_neg (by simpa using Ne.symm h.1), ih h.2]
    rfl

/-- The only name in braces of a part that fits is the parameter that the part turns into. -/
theorem toList_partParameter?_of_fits (h : Fits part) :
    (partParameter? part).toList = bracedNames part := by
  rcases h with ⟨hnames, hnone⟩ | ⟨before, name, after, rfl, hopen, hclose, hstray⟩
  · rw [hnames, hnone]
    rfl
  · rw [List.forall_mem_append] at hstray
    have hparameter : partParameter? (before ++ '{' :: (name ++ '}' :: after)) = some name := by
      rw [partParameter?_eq_some_iff, unbraced_around hopen hclose, unbraced_eq_nil_iff.2 hstray.1,
        unbraced_eq_nil_iff.2 hstray.2, List.append_nil]
      rfl
    have hbefore : '{' ∉ before := fun hmem => absurd (hstray.1 _ hmem) (by decide)
    have hafter : '{' ∉ name ++ '}' :: after := by
      rw [List.mem_append, List.mem_cons, not_or, not_or]
      exact ⟨hopen, by decide, fun hmem => absurd (hstray.2 _ hmem) (by decide)⟩
    have hname : nameBefore? (name ++ '}' :: after) = some name :=
      nameBefore?_eq_some_iff.2 ⟨⟨after, by simp⟩, hopen, hclose⟩
    rw [hparameter, bracedNames_append_of_not_mem hbefore, bracedNames, bracedNames_of_not_mem hafter,
      hname]
    rfl

/-- The parameter of a part is at least as long as a name in the part, and longer unless the part
fits. -/
theorem length_le_of_mem_bracedNames {parameter : List Char} (hp : partParameter? part = some parameter)
    (hname : name ∈ bracedNames part) :
    name.length ≤ parameter.length ∧ (parameter.length ≤ name.length → Fits part) := by
  obtain ⟨⟨before, after, rfl⟩, hopen, hclose⟩ := mem_bracedNames_iff.1 hname
  have hpart : before ++ '{' :: (name ++ ['}']) ++ after = before ++ '{' :: (name ++ '}' :: after) := by
    simp
  rw [hpart] at hp ⊢
  rw [partParameter?_eq_some_iff, unbraced_around hopen hclose] at hp
  cases hbefore : unbraced before with
  | nil =>
    rw [hbefore] at hp
    obtain rfl := (List.cons.inj hp).2
    rw [List.length_append]
    refine ⟨Nat.le_add_right _ _, fun hle => .inr ⟨before, name, after, rfl, hopen, hclose, ?_⟩⟩
    have hafter : unbraced after = [] := List.length_eq_zero_iff.1 (by omega)
    rw [List.forall_mem_append]
    exact ⟨unbraced_eq_nil_iff.1 hbefore, unbraced_eq_nil_iff.1 hafter⟩
  | cons c cs =>
    rw [hbefore, List.cons_append] at hp
    obtain rfl := (List.cons.inj hp).2
    simp only [List.length_append, List.length_cons]
    constructor
    · omega
    · omega

/-! ## All parts together -/

/-- Where a list has at most as many items for each key as another, but not fewer in all, it has as
many for each key. -/
theorem length_eq_of_flatMap {α β : Type} {as : List α} {f g : α → List β}
    (hle : ∀ a ∈ as, (f a).length ≤ (g a).length)
    (h : (as.flatMap g).length ≤ (as.flatMap f).length) :
    ∀ a ∈ as, (f a).length = (g a).length := by
  intro a ha
  by_contra hne
  have hlt := List.sum_lt_sum (fun a => (f a).length) (fun a => (g a).length) hle
    ⟨a, ha, lt_of_le_of_ne (hle a ha) hne⟩
  rw [List.length_flatMap, List.length_flatMap] at h
  omega

section Different

variable {parts : List (List Char)} (hnodup : (parts.flatMap bracedNames).Nodup)
  (hunmarked : ∀ part ∈ parts, bracedNames part = [] → partParameter? part = none)
  (hsubset : parts.flatMap bracedNames ⊆ parts.flatMap fun part => (partParameter? part).toList)

include hnodup hunmarked hsubset

/-- If all names are parameters, each part has as many parameters as names, which is one or none. -/
theorem length_toList_partParameter? :
    ∀ part ∈ parts, (partParameter? part).toList.length = (bracedNames part).length := by
  refine length_eq_of_flatMap ?_ (hnodup.subperm hsubset).length_le
  intro part hpart
  cases hp : partParameter? part with
  | none => exact Nat.zero_le _
  | some parameter =>
    apply List.length_pos_iff.2
    intro hnil
    cases hp.symm.trans (hunmarked part hpart hnil)

theorem none_or_one {part : List Char} (hpart : part ∈ parts) :
    (bracedNames part = [] ∧ partParameter? part = none) ∨
      ∃ name parameter, bracedNames part = [name] ∧ partParameter? part = some parameter := by
  have hsame := length_toList_partParameter? hnodup hunmarked hsubset part hpart
  cases hp : partParameter? part with
  | none =>
    rw [hp] at hsame
    exact .inl ⟨List.length_eq_zero_iff.1 hsame.symm, rfl⟩
  | some parameter =>
    rw [hp] at hsame
    obtain ⟨name, hname⟩ := List.length_eq_one_iff.1 hsame.symm
    exact .inr ⟨name, parameter, hname, rfl⟩

theorem length_flatten_flatMap :
    (parts.flatMap fun part => (partParameter? part).toList.flatten).length =
      (parts.flatMap fun part => (bracedNames part).flatten).length := by
  have hlength : (parts.flatMap fun part => (partParameter? part).toList).length ≤
      (parts.flatMap bracedNames).length := by
    rw [List.length_flatMap, List.length_flatMap,
      List.map_congr_left (length_toList_partParameter? hnodup hunmarked hsubset)]
  have hperm := ((hnodup.subperm hsubset).perm_of_length_le hlength).flatMap_right id
  rw [List.flatMap_assoc, List.flatMap_assoc] at hperm
  simp only [List.flatMap_id] at hperm
  exact hperm.length_eq.symm

/-- If the names in braces are all different and all of them are parameters, every part fits. -/
theorem fits_of_subset : ∀ part ∈ parts, Fits part := by
  have hchars : ∀ part ∈ parts,
      (bracedNames part).flatten.length = (partParameter? part).toList.flatten.length := by
    refine length_eq_of_flatMap ?_ (length_flatten_flatMap hnodup hunmarked hsubset).le
    intro part hpart
    rcases none_or_one hnodup hunmarked hsubset hpart with ⟨hnames, hp⟩ | ⟨name, parameter, hnames, hp⟩
    · rw [hnames, hp]
      exact Nat.le_refl 0
    · have hmem : name ∈ bracedNames part := by simp [hnames]
      have hle := (length_le_of_mem_bracedNames hp hmem).1
      rw [hnames, hp]
      simpa using hle
  intro part hpart
  rcases none_or_one hnodup hunmarked hsubset hpart with hnone | ⟨name, parameter, hnames, hp⟩
  · exact .inl hnone
  · have hmem : name ∈ bracedNames part := by simp [hnames]
    have hsame := hchars part hpart
    rw [hnames, hp] at hsame
    apply (length_le_of_mem_bracedNames hp hmem).2
    simpa using hsame.ge

end Different

/-! ## Paths of operations -/

/-- A path has a name in braces, without braces or slashes in it. -/
def HasExpression (path name : String) : Prop :=
  '{' :: (name.toList ++ ['}']) <:+: path.toList ∧
    '{' ∉ name.toList ∧ '}' ∉ name.toList ∧ '/' ∉ name.toList

/-- The parts of a path between its slashes. -/
def partsOf (path : String) : List (List Char) := Text.split '/' path.toList

theorem hasExpression_iff {n : String} :
    HasExpression path n ↔ n.toList ∈ (partsOf path).flatMap bracedNames := by
  rw [List.mem_flatMap]
  constructor
  · rintro ⟨hwithin, hopen, hclose, hslash⟩
    have hwhole : '/' ∉ '{' :: (n.toList ++ ['}']) := by simpa using hslash
    obtain ⟨part, hpart, hwithin⟩ := (Text.infix_part_iff hwhole).2 hwithin
    exact ⟨part, hpart, mem_bracedNames_iff.2 ⟨hwithin, hopen, hclose⟩⟩
  · rintro ⟨part, hpart, hname⟩
    obtain ⟨hwithin, hopen, hclose⟩ := mem_bracedNames_iff.1 hname
    have hwhole : '/' ∉ '{' :: (n.toList ++ ['}']) := fun hmem =>
      Text.not_mem_of_mem_split hpart (hwithin.subset hmem)
    refine ⟨(Text.infix_part_iff hwhole).1 ⟨part, hpart, hwithin⟩, hopen, hclose, ?_⟩
    simpa using hwhole

theorem parameter_mem_segments_iff {route : Route} {n : String} (hurl : route.url = urlTemplate path) :
    .parameter n ∈ route.segments ↔ n.toList ∈ (partsOf path).filterMap partParameter? := by
  have hsplit : Text.split '/' route.url.toList = (partsOf path).map unbraced := by
    rw [hurl]
    exact (congrArg (Text.split '/') String.toList_ofList).trans (split_unbraced path.toList)
  rw [Route.segments, Segment.ofUrl, hsplit, List.map_map, List.mem_map, List.mem_filterMap]
  apply exists_congr
  intro part
  rw [Function.comp_apply, Segment.ofPart_eq_parameter_iff, partParameter?_eq_some_iff]

section Routes

variable {document operation shared version : Value} {method : String} {route : Route}

/-- **The names in braces of a path are the parameters of the URL if every part of the path fits.**
Suppose that all names in braces of a path are declared, for the path or by the operation. Then they
are URL parameters of the route of the operation. If every part between slashes fits, they are
exactly the names that the URL of the route refers to. They are so only then, if they are all
different and no part without a name in braces is a parameter. -/
theorem placeholders_exact
    (h : (routeOfOperation document (.text path) method operation shared version).result = .ok route)
    (hdeclared : ∀ n, HasExpression path n → Declared shared operation n) :
    (∀ n, HasExpression path n → ⟨n, .string⟩ ∈ route.urlParameters) ∧
      ((∀ part ∈ partsOf path, Fits part) →
        ∀ n, .parameter n ∈ route.segments ↔ HasExpression path n) ∧
      (((partsOf path).flatMap bracedNames).Nodup →
        (∀ part ∈ partsOf path, bracedNames part = [] → partParameter? part = none) →
        (∀ n, .parameter n ∈ route.segments ↔ HasExpression path n) →
        ∀ part ∈ partsOf path, Fits part) := by
  obtain ⟨⟨text, htext, hurl⟩, ⟨own, hown, hparameters⟩, -⟩ := readFrom_of_routeOfOperation h
  obtain rfl : path = text := Scalar.text.inj (Value.scalar.inj htext)
  have hsegments : ∀ n : String, .parameter n ∈ route.segments ↔
      n.toList ∈ (partsOf path).filterMap partParameter? :=
    fun n => parameter_mem_segments_iff hurl
  refine ⟨?_, ?_, ?_⟩
  · intro n hn
    apply mem_urlParameters_of_declared hparameters
    rcases hdeclared n hn with hshared | ⟨own', hown', hmem⟩
    · exact .inl hshared
    · obtain rfl := Except.ok.inj (hown.symm.trans hown')
      exact .inr hmem
  · intro hfits n
    have hnames : (partsOf path).filterMap partParameter? = (partsOf path).flatMap bracedNames := by
      rw [List.filterMap_eq_flatMap_toList, List.flatMap_def, List.flatMap_def]
      exact congrArg List.flatten (List.map_congr_left fun part hpart =>
        toList_partParameter?_of_fits (hfits part hpart))
    rw [hsegments, hasExpression_iff, hnames]
  · intro hnodup hunmarked hexact
    apply fits_of_subset hnodup hunmarked
    intro name hname
    rw [← List.filterMap_eq_flatMap_toList]
    have hn : HasExpression path (String.ofList name) := by
      rwa [hasExpression_iff, String.toList_ofList]
    have hmem := (hsegments _).1 ((hexact _).2 hn)
    rwa [String.toList_ofList] at hmem

/-- A declaration of a text in the path. -/
def pathParameter (name : String) : Value := .mapping
  [(.text "name", .text name), (.text "in", .text "path"), (.text "required", .bool true)]

theorem declaredIn_pathParameter (name : String) : DeclaredIn (.list [pathParameter name]) name :=
  ⟨_, rfl, pathParameter name, List.mem_cons_self, rfl, rfl, rfl⟩

/-- An operation with a parameter of its own. -/
def operationWith (id name : String) : Value := .mapping
  [(.text "operationId", .text id), (.text "parameters", .list [pathParameter name])]

def postRoute : Route :=
  ⟨"getPost", none, .get, "/users/:id/posts/:postId", "/users/{id}/posts/{postId}", "",
    [⟨"id", .string⟩, ⟨"postId", .string⟩], none, none⟩

/-- The user of a path and the post of its operation are the parameters of the URL. -/
theorem post_placeholders :
    (routeOfOperation .null (.text "/users/{id}/posts/{postId}") "get"
      (operationWith "getPost" "postId") (.list [pathParameter "id"]) (.text "")).result =
        .ok postRoute ∧
    ∀ n, .parameter n ∈ postRoute.segments ↔ HasExpression "/users/{id}/posts/{postId}" n := by
  have hroute : (routeOfOperation .null (.text "/users/{id}/posts/{postId}") "get"
      (operationWith "getPost" "postId") (.list [pathParameter "id"]) (.text "")).result =
        .ok postRoute := rfl
  have hnames : (partsOf "/users/{id}/posts/{postId}").flatMap bracedNames =
      ["id".toList, "postId".toList] := rfl
  have hparts : partsOf "/users/{id}/posts/{postId}" =
      [[], "users".toList, "{id}".toList, "posts".toList, "{postId}".toList] := rfl
  refine ⟨hroute, (placeholders_exact hroute ?_).2.1 ?_⟩
  · intro n hn
    rw [hasExpression_iff, hnames] at hn
    simp only [List.mem_cons, String.toList_inj, List.not_mem_nil, or_false] at hn
    rcases hn with rfl | rfl
    · exact .inl (declaredIn_pathParameter "id")
    · exact .inr ⟨_, rfl, declaredIn_pathParameter "postId"⟩
  · rw [hparts]
    simp only [List.forall_mem_cons]
    refine ⟨.inl ⟨rfl, rfl⟩, .inl ⟨rfl, rfl⟩, .inr ?_, .inl ⟨rfl, rfl⟩, .inr ?_, nofun⟩
    · exact ⟨[], "id".toList, [], rfl, by decide, by decide, nofun⟩
    · exact ⟨[], "postId".toList, [], rfl, by decide, by decide, nofun⟩

/-- The route of a file whose path has an extension after its name. -/
def fileRoute : Route :=
  ⟨"getFile", none, .get, "/files/:name.json", "/files/{name}.json", "", [⟨"name", .string⟩], none,
    none⟩

/-- The name of a file is declared and the only name in braces, but the URL refers to the name with
the extension, which is no parameter of the route. -/
theorem file_extension_in_placeholder :
    (routeOfOperation .null (.text "/files/{name}.json") "get" (operationWith "getFile" "name") .null
      (.text "")).result = .ok fileRoute ∧
    (∀ n, HasExpression "/files/{name}.json" n ↔ n = "name") ∧
    Declared .null (operationWith "getFile" "name") "name" ∧
    (∀ n, .parameter n ∈ fileRoute.segments ↔ n = "name.json") ∧
    "name.json" ∉ fileRoute.urlParameters.map (·.name) ∧
    ¬ ∀ n, .parameter n ∈ fileRoute.segments ↔ HasExpression "/files/{name}.json" n := by
  have hnames : (partsOf "/files/{name}.json").flatMap bracedNames = ["name".toList] := rfl
  have hsegments : fileRoute.segments =
      [.literal "", .literal "files", .parameter "name.json"] := rfl
  have hexpression : ∀ n, HasExpression "/files/{name}.json" n ↔ n = "name" := by
    intro n
    rw [hasExpression_iff, hnames, List.mem_singleton, String.toList_inj]
  have hparameter : ∀ n, .parameter n ∈ fileRoute.segments ↔ n = "name.json" := by
    intro n
    simp [hsegments]
  refine ⟨rfl, hexpression, .inr ⟨_, rfl, declaredIn_pathParameter "name"⟩, hparameter, by decide, ?_⟩
  intro hexact
  have hn : ("name.json" : String) = "name" :=
    (hexpression _).1 ((hexact _).1 ((hparameter _).2 rfl))
  exact absurd hn (by decide)

end Routes

end ApiBindings.OpenApi
