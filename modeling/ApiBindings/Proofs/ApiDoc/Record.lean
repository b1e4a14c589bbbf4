import ApiBindings.Proofs.ApiDoc.Branches
import ApiBindings.Proofs.ApiDoc.Declared
import ApiBindings.Proofs.Outcomes

/-!
# The record of a list of fields

A part of the record stands at a path of keys, through members that are records or arrays of
records. It is built from the tree of what the list places below the path (`built_of_nests`). So
each record has one member for each key that the list mentions after its path, in the order of first
mention, and each member follows the last declaration at its own path (`record_follows_fields`).

A branch that is declared with another type than an object has no members, whatever the list places
below it (`typeOf_branchAt`).
-/

namespace ApiBindings

namespace Ty

/-- The type inside the arrays around it. -/
def inner : Ty → Ty
  | array element => element.inner
  | ty => ty

/-- The members of a record, or of the records in an array. -/
def fields (ty : Ty) : List Member :=
  match ty.inner with
  | record _ members => members
  | _ => []

/-- A type nests a part at a path, which names the members on the way to the part. -/
inductive Nests : Ty → List String → Ty → Prop
  | self (ty : Ty) : Nests ty [] ty
  | member {ty part : Ty} {m : Member} {path : List String} (hm : m ∈ ty.fields)
    (h : Nests m.ty path part) : Nests ty (m.name :: path) part

/-- A member stands at a path: the last key of the path names it. -/
def HasMember (ty : Ty) (path : List String) : Prop :=
  ∃ outer part m, path = outer ++ [m.name] ∧ ty.Nests outer part ∧ m ∈ part.fields

theorem inner_of_mem_fields {ty : Ty} {m : Member} (hm : m ∈ ty.fields) :
    ∃ name, ty.inner = .record name ty.fields := by
  unfold fields at hm ⊢
  cases hi : ty.inner with
  | record name members => exact ⟨name, rfl⟩
  | _ => simp [hi] at hm

theorem nests_cons_iff {ty part : Ty} {key : String} {path : List String} :
    ty.Nests (key :: path) part ↔ ∃ m ∈ ty.fields, m.name = key ∧ m.ty.Nests path part := by
  constructor
  · rintro (_ | ⟨hm, h⟩)
    exact ⟨_, hm, rfl, h⟩
  · rintro ⟨m, hm, rfl, h⟩
    exact .member hm h

theorem hasMember_iff {ty : Ty} {path : List String} (hp : path ≠ []) :
    ty.HasMember path ↔ ∃ part, ty.Nests path part := by
  constructor
  · rintro ⟨outer, part, m, rfl, h, hm⟩
    induction h with
    | self ty => exact ⟨m.ty, .member hm (.self m.ty)⟩
    | member hm' h ih =>
      obtain ⟨part', hpart⟩ := ih (by simp) hm
      exact ⟨part', .member hm' hpart⟩
  · rintro ⟨part, h⟩
    induction h with
    | self ty => exact absurd rfl hp
    | @member ty part m path hm h ih =>
      by_cases hpath : path = []
      · subst hpath
        exact ⟨[], ty, m, rfl, .self ty, hm⟩
      · obtain ⟨outer, part', m', rfl, h', hm'⟩ := ih hpath
        exact ⟨m.name :: outer, part', m', rfl, .member hm h', hm'⟩

/-- A type is among the parts of another, the arrays around it aside. -/
def HasPart (ty t : Ty) : Prop := ∃ path part, ty.Nests path part ∧ part.inner = t

end Ty

namespace ApiDoc

@[simp] theorem inner_arrayIf (isArray : Bool) (ty : Ty) :
    (arrayIf isArray ty).inner = ty.inner := by
  cases isArray with
  | false => rfl
  | true => rfl

@[simp] theorem fields_arrayIf (isArray : Bool) (ty : Ty) :
    (arrayIf isArray ty).fields = ty.fields := by
  rw [Ty.fields, inner_arrayIf]
  rfl

/-! ## Branches and members -/

section Branch

variable {place key : String} {placed : List Placement} {branches : List (String × Branch)}
  {members : List Member} {ty : Ty} {declaration : Declaration}

/-- The members of a record come from the branches one by one. -/
theorem membersOf_ok (h : membersOf place branches = .ok members) :
    List.Forall₂ (fun e m => e.1 = m.name ∧
      descriptionOf (e.2.declaration.getD []) = .ok m.description ∧
      typeOf (place ++ " " ++ e.1) e.2 = .ok m.ty ∧
      m.isOptional = (property "optional" (e.2.declaration.getD [])).isTrue) branches members := by
  induction branches generalizing members with
  | nil =>
    obtain rfl := Except.ok.inj h
    exact .nil
  | cons e branches ih =>
    obtain ⟨key, branch⟩ := e
    rw [membersOf] at h
    obtain ⟨description, hd, h⟩ := bind_eq_ok.1 h
    obtain ⟨ty, ht, h⟩ := bind_eq_ok.1 h
    obtain ⟨rest, hrest, h⟩ := bind_eq_ok.1 h
    obtain rfl := Except.ok.inj h
    exact .cons ⟨rfl, hd, ht, rfl⟩ (ih hrest)

/-- The record of a tree has a member for every key that a path starts with, in the order of first
mention, made of the branch at the key. -/
theorem membersOf_treeOf (h : membersOf place (treeOf placed) = .ok members) :
    members.map (·.name) = mentioned [] placed ∧ ∀ m ∈ members,
      descriptionOf ((declaredAt [m.name] placed).getD []) = .ok m.description ∧
      typeOf (place ++ " " ++ m.name) (branchAt m.name placed) = .ok m.ty ∧
      m.isOptional = (property "optional" ((declaredAt [m.name] placed).getD [])).isTrue := by
  rw [treeOf_eq] at h
  have hall := List.forall₂_map_left_iff.1 (membersOf_ok h)
  constructor
  · have hnames : List.Forall₂ (fun k name => k = name) (mentioned [] placed)
        (members.map (·.name)) := List.forall₂_map_right_iff.2 (hall.imp fun k m hm => hm.1)
    rw [List.forall₂_eq_eq_eq] at hnames
    exact hnames.symm
  · intro m hm
    obtain ⟨k, -, rfl, hmember⟩ := exists_of_mem_right hall hm
    exact hmember

/-- Whether the fields below a branch are kept, by its declaration: if it is an object, or not
declared at all. -/
def KeepsFields : Option Declaration → Prop
  | none => True
  | some declaration => ∃ raw, writtenType declaration = .ok raw ∧
      (FieldType.parse raw).base = objectType

/-- The type of a branch, by its declaration and by the keys below it: a record if it is not
declared, and else the type that is declared, or an array of it. -/
def FollowsType (place : String) (keys : List String) : Option Declaration → Ty → Prop
  | none, ty => ∃ members, ty = .record place members
  | some declaration, ty => ∃ written element, IsOfType declaration written ∧
      Gives place keys declaration written.base element ∧
      ty = if written.isArray then .array element else element

/-- A type is built from what is placed below a path: a record has the members of the tree, and a
record or union has the name of the place. -/
inductive Built (place : String) (placed : List Placement) : Ty → Prop
  | primitive (p : Primitive) : Built place placed (.primitive p)
  | map (key value : Primitive) : Built place placed (.map (.primitive key) (.primitive value))
  | union (cases : List String) : Built place placed (.union place cases)
  | record {members : List Member} (h : membersOf place (treeOf placed) = .ok members) :
    Built place placed (.record place members)
  | array {element : Ty} (h : Built place placed element) : Built place placed (.array element)

theorem built_arrayIf (isArray : Bool) (h : Built place placed ty) :
    Built place placed (arrayIf isArray ty) := by
  cases isArray with
  | false => exact h
  | true => exact .array h

/-- A plain type is a primitive or a union, so nothing below it counts. -/
theorem built_plainType {base raw : String}
    (h : plainType place base raw declaration = .ok ty) : Built place placed ty ∧ ty.fields = [] := by
  obtain ⟨p, -, h⟩ := bind_eq_ok.1 h
  simp only at h
  split at h
  · obtain ⟨items, -, h⟩ := bind_eq_ok.1 h
    obtain rfl := Except.ok.inj h
    exact ⟨.union _, rfl⟩
  · obtain rfl := Except.ok.inj h
    exact ⟨.primitive p, rfl⟩

theorem Built.membersOf_inner {name : String} (h : Built place placed ty)
    (hi : ty.inner = .record name members) : membersOf place (treeOf placed) = .ok members := by
  induction h with
  | record h =>
    obtain ⟨-, rfl⟩ := Ty.record.inj hi
    exact h
  | array h ih => exact ih hi
  | _ => cases hi

theorem Built.membersOf_fields {m : Member} (h : Built place placed ty) (hm : m ∈ ty.fields) :
    membersOf place (treeOf placed) = .ok ty.fields := by
  obtain ⟨name, hi⟩ := Ty.inner_of_mem_fields hm
  exact h.membersOf_inner hi

theorem Built.name_inner {name : String} (h : Built place placed ty)
    (hn : ty.inner.name? = some name) : name = place := by
  induction h with
  | record h => exact (Option.some.inj hn).symm
  | union cases => exact (Option.some.inj hn).symm
  | array h ih => exact ih hn
  | _ => cases hn

theorem treeOf_isEmpty (placed : List Placement) :
    (treeOf placed).isEmpty = decide (mentioned [] placed = []) := by
  rw [treeOf_eq]
  cases mentioned [] placed with
  | nil => rfl
  | cons key keys => rfl

/-- The type of a declared branch is the map of texts, the record of the branches below or a plain
type, or an array of it. -/
theorem typeOf_declared {nested : List (String × Branch)}
    (h : typeOf place (.mk (some declaration) nested) = .ok ty) :
    ∃ raw element, writtenType declaration = .ok raw ∧
      ty = arrayIf (FieldType.parse raw).isArray element ∧
      ((FieldType.parse raw).base = objectType ∧ nested.isEmpty ∧
          element = .map (.primitive .string) (.primitive .string) ∨
        (FieldType.parse raw).base = objectType ∧ ¬ nested.isEmpty ∧
          (∃ members, membersOf place nested = .ok members ∧ element = .record place members) ∨
        (FieldType.parse raw).base ≠ objectType ∧
          plainType place (FieldType.parse raw).base raw declaration = .ok element) := by
  rw [typeOf] at h
  obtain ⟨raw, hraw, h⟩ := bind_eq_ok.1 h
  simp only at h
  by_cases hbase : (FieldType.parse raw).base = objectType
  · rw [if_pos hbase] at h
    by_cases hempty : nested.isEmpty
    · rw [if_pos hempty] at h
      exact ⟨raw, _, hraw, (Except.ok.inj h).symm, .inl ⟨hbase, hempty, rfl⟩⟩
    · rw [if_neg hempty] at h
      obtain ⟨members, hm, h⟩ := bind_eq_ok.1 h
      exact ⟨raw, _, hraw, (Except.ok.inj h).symm, .inr (.inl ⟨hbase, hempty, members, hm, rfl⟩)⟩
  · rw [if_neg hbase] at h
    obtain ⟨element, helement, h⟩ := bind_eq_ok.1 h
    exact ⟨raw, element, hraw, (Except.ok.inj h).symm, .inr (.inr ⟨hbase, helement⟩)⟩

theorem keepsFields_some_iff {raw : String} (hraw : writtenType declaration = .ok raw) :
    KeepsFields (some declaration) ↔ (FieldType.parse raw).base = objectType := by
  constructor
  · rintro ⟨raw', hraw', hbase⟩
    obtain rfl := Except.ok.inj (hraw.symm.trans hraw')
    exact hbase
  · intro hbase
    exact ⟨raw, hraw, hbase⟩

/-- The type of a branch follows its declaration and is built from what is placed below, and it has
members if the fields below are kept. -/
theorem typeOf_branchAt (h : typeOf place (branchAt key placed) = .ok ty) :
    FollowsType place (mentioned [key] placed) (declaredAt [key] placed) ty ∧
      Built place (below [key] placed) ty ∧
      (mentioned [key] placed ≠ [] → (KeepsFields (declaredAt [key] placed) ↔ ty.fields ≠ [])) := by
  rw [mentioned_cons]
  unfold branchAt at h
  generalize declaredAt [key] placed = declared at h ⊢
  generalize below [key] placed = placed at h ⊢
  have hsome : ∀ {members}, membersOf place (treeOf placed) = .ok members →
      mentioned [] placed ≠ [] → members ≠ [] := by
    rintro members hm hne rfl
    exact hne (membersOf_treeOf hm).1.symm
  cases declared with
  | none =>
    rw [typeOf] at h
    obtain ⟨members, hm, h⟩ := bind_eq_ok.1 h
    obtain rfl := Except.ok.inj h
    exact ⟨⟨members, rfl⟩, .record hm, fun hne => ⟨fun _ => hsome hm hne, fun _ => trivial⟩⟩
  | some declaration =>
    obtain ⟨raw, element, hraw, rfl, helement⟩ := typeOf_declared h
    rw [treeOf_isEmpty, decide_eq_true_eq] at helement
    rw [keepsFields_some_iff hraw, fields_arrayIf]
    have hwritten := isOfType_of_writtenType hraw
    rcases helement with ⟨hbase, hkeys, rfl⟩ | ⟨hbase, hkeys, members, hm, rfl⟩ | ⟨hbase, hplain⟩
    · refine ⟨⟨_, _, hwritten, ?_, rfl⟩, built_arrayIf _ (.map _ _), fun hne => absurd hkeys hne⟩
      rw [hbase]
      exact .map hkeys
    · refine ⟨⟨_, _, hwritten, ?_, rfl⟩, built_arrayIf _ (.record hm), fun hne => ?_⟩
      · rw [hbase]
        exact .record hkeys
      · exact ⟨fun _ => hsome hm hne, fun _ => hbase⟩
    · obtain ⟨hbuilt, hfields⟩ := built_plainType hplain
      refine ⟨⟨_, element, hwritten, gives_of_plainType hplain, rfl⟩, built_arrayIf _ hbuilt, ?_⟩
      exact fun _ => ⟨fun h => absurd h hbase, fun h => absurd hfields h⟩

end Branch

/-! ## Parts of the record -/

/-- The name of a type at a path below a place. -/
def placeName (place : String) (path : List String) : String := path.foldl (· ++ " " ++ ·) place

section Parts

variable {place name : String} {placed : List Placement} {fields : List Value} {ty part t : Ty}
  {path : List String} {m : Member}

theorem placeName_append_singleton (place : String) (path : List String) (key : String) :
    placeName place (path ++ [key]) = placeName place path ++ " " ++ key := by
  simp [placeName]

theorem built_of_nests (h : Built place placed ty) (hn : ty.Nests path part) :
    Built (placeName place path) (below path placed) part := by
  induction hn generalizing place placed with
  | self ty =>
    rw [below_nil]
    exact h
  | member hm _ ih =>
    obtain ⟨-, hmembers⟩ := membersOf_treeOf (h.membersOf_fields hm)
    obtain ⟨-, htype, -⟩ := hmembers _ hm
    obtain ⟨-, hbuilt, -⟩ := typeOf_branchAt htype
    rw [below_cons]
    exact ih hbuilt

theorem recordOf_ok (h : recordOf name fields = .ok (some ty)) :
    ∃ placed members, fields.mapM fieldPath = .ok placed ∧ ty = .record name members ∧
      membersOf name (treeOf placed) = .ok members := by
  unfold recordOf at h
  split at h
  · cases h
  · obtain ⟨branches, hb, h⟩ := bind_eq_ok.1 h
    obtain ⟨members, hm, h⟩ := bind_eq_ok.1 h
    obtain ⟨placed, hp, hb⟩ := bind_eq_ok.1 hb
    obtain rfl := Option.some.inj (Except.ok.inj h)
    obtain rfl := Except.ok.inj hb
    exact ⟨placed, members, hp, rfl, hm⟩

/-- A member follows the last declaration at its path; one that is never declared is required and
has no description. -/
def FollowsMember (place : String) (keys : List String) (declared : Option Declaration)
    (m : Member) : Prop :=
  FollowsType place keys declared m.ty ∧
    match declared with
    | none => m.description = none ∧ m.isOptional = false
    | some declaration => DescribedAs declaration m.description ∧
      (m.isOptional ↔ (Value.entry "optional" (.mapping declaration)).isTrue)

/-- A part of a record follows the list of fields: its name and its members are those of its path.
-/
structure FollowsFields (name : String) (placed : List Placement) (path : List String)
    (part : Ty) : Prop where
  named : ∀ n, part.inner.name? = some n → n = placeName name path
  ordered : ∀ n members, part.inner = .record n members →
    members.map (·.name) = mentioned path placed
  distinct : (part.fields.map (·.name)).Nodup
  listed : ∀ m ∈ part.fields, ∃ p ∈ placed, path ++ [m.name] <+: p.1
  declared : ∀ m ∈ part.fields, FollowsMember (placeName name (path ++ [m.name]))
    (mentioned (path ++ [m.name]) placed) (declaredAt (path ++ [m.name]) placed) m

/-- What is built from the list below its path follows the list. -/
theorem followsFields_of_built (h : Built (placeName name path) (below path placed) part) :
    FollowsFields name placed path part := by
  have hmentioned : mentioned [] (below path placed) = mentioned path placed := by
    unfold mentioned
    rw [below_nil]
  have hordered : ∀ n members, part.inner = .record n members →
      members.map (·.name) = mentioned path placed := by
    intro n members hi
    rw [(membersOf_treeOf (h.membersOf_inner hi)).1, hmentioned]
  have hnames : ∀ m ∈ part.fields, part.fields.map (·.name) = mentioned path placed := by
    intro m hm
    obtain ⟨n, hi⟩ := Ty.inner_of_mem_fields hm
    exact hordered n _ hi
  constructor
  · intro n hn
    exact h.name_inner hn
  · exact hordered
  · by_cases hnil : part.fields = []
    · rw [hnil]
      exact List.nodup_nil
    · obtain ⟨m, hm⟩ := List.exists_mem_of_ne_nil _ hnil
      rw [hnames m hm]
      exact nodup_mentioned _ _
  · intro m hm
    apply mem_mentioned_iff.1
    rw [← hnames m hm]
    exact List.mem_map_of_mem hm
  · intro m hm
    obtain ⟨-, hmembers⟩ := membersOf_treeOf (h.membersOf_fields hm)
    obtain ⟨hdescription, htype, hoptional⟩ := hmembers m hm
    obtain ⟨hfollows, -, -⟩ := typeOf_branchAt htype
    rw [placeName_append_singleton, mentioned_append, declaredAt_append]
    refine ⟨hfollows, ?_⟩
    revert hdescription hoptional
    cases declaredAt [m.name] (below path placed) with
    | none =>
      intro hdescription hoptional
      exact ⟨(Except.ok.inj hdescription).symm, hoptional⟩
    | some declaration =>
      intro hdescription hoptional
      exact ⟨describedAs_of_descriptionOf hdescription, by rw [hoptional]; rfl⟩

theorem exists_of_mem_referencedByMembers {members : List Member}
    (h : t ∈ Ty.referencedByMembers members) : ∃ m ∈ members, t ∈ m.ty :: m.ty.referenced := by
  induction members with
  | nil => cases h
  | cons m members ih =>
    obtain ⟨name, description, ty, isOptional⟩ := m
    rw [Ty.referencedByMembers, List.mem_append] at h
    rcases h with h | h
    · exact ⟨_, List.mem_cons_self, h⟩
    · obtain ⟨m', hm', ht⟩ := ih h
      exact ⟨m', List.mem_cons_of_mem _ hm', ht⟩

theorem hasPart_of_built {place : String} {placed : List Placement} {ty t : Ty}
    (h : Built place placed ty) (hn : t.name?.isSome) (ht : t ∈ ty :: ty.referenced) :
    ty.HasPart t := by
  cases h with
  | primitive p =>
    obtain rfl := List.mem_singleton.1 ht
    cases hn
  | map key value =>
    simp only [Ty.referenced, List.append_nil, List.mem_cons, List.not_mem_nil, or_false] at ht
    rcases ht with rfl | rfl | rfl <;> cases hn
  | union cases =>
    obtain rfl := List.mem_singleton.1 ht
    exact ⟨[], _, .self _, rfl⟩
  | array h =>
    rcases List.mem_cons.1 ht with rfl | ht
    · cases hn
    obtain ⟨path, part, hnests, hinner⟩ := hasPart_of_built h hn ht
    cases hnests with
    | self => exact ⟨[], _, .self _, hinner⟩
    | member hm hnests => exact ⟨_, part, .member hm hnests, hinner⟩
  | @record members h =>
    rcases List.mem_cons.1 ht with rfl | ht
    · exact ⟨[], _, .self _, rfl⟩
    obtain ⟨m, hm, ht⟩ := exists_of_mem_referencedByMembers ht
    obtain ⟨-, htype, -⟩ := (membersOf_treeOf h).2 m hm
    obtain ⟨-, hbuilt, -⟩ := typeOf_branchAt htype
    have hsize := Ty.sizeOf_lt_of_mem hm place
    obtain ⟨path, part, hnests, hinner⟩ := hasPart_of_built hbuilt hn ht
    exact ⟨_, part, .member hm hnests, hinner⟩
termination_by sizeOf ty

/-- **The record of a list of fields follows the list.** Whenever a list of fields has a record, it
has the given name, and all records and unions in it are at some path. At every path the members of
a record are the keys that the list mentions there, in the order of first mention and each of them
once, and each follows the last declaration at its path: its description, its type and whether it is
optional are those that the entries of the declaration say. A record or union is named by the path.
-/
theorem record_follows_fields (h : recordOf name fields = .ok (some ty)) :
    ∃ placed members, List.Forall₂ IsPlaced fields placed ∧ ty = .record name members ∧
      (∀ path part, ty.Nests path part → FollowsFields name placed path part) ∧
      ∀ t ∈ ty :: ty.referenced, t.name?.isSome → ty.HasPart t := by
  obtain ⟨placed, members, hplaced, rfl, hmembers⟩ := recordOf_ok h
  refine ⟨placed, members, ?_, rfl, ?_, ?_⟩
  · exact (forall₂_of_mapM hplaced).imp fun _ _ => isPlaced_of_fieldPath
  · intro path part hn
    exact followsFields_of_built (built_of_nests (.record hmembers) hn)
  · intro t ht hn
    exact hasPart_of_built (.record hmembers) hn ht

/-- The declaration of a field with its type. -/
def typed (name type : String) : Declaration :=
  [(.text "field", .text name), (.text "type", .text type)]

/-- A list of users, with a description in markup. -/
def usersDeclaration : Declaration :=
  typed "users" "Object[]" ++ [(.text "description", .text "All <b>users</b>\n found ")]

/-- A text that may be left out, of which two values are allowed. -/
def roleDeclaration : Declaration :=
  typed "users.role" "String{1..5}" ++
    [(.text "optional", .bool true), (.text "allowedValues", .list [.text "\"admin\"", .text "guest"])]

/-- The fields of a list of users. The name is declared twice, and before the list. -/
def userFields : List Value :=
  [.mapping (typed "users.name" "Number"), .mapping usersDeclaration, .mapping roleDeclaration,
    .mapping (typed "tags" " string [] "), .mapping (typed "users.name" "String")]

def userRecord : Ty := .record "GetUsers response users"
  [⟨"name", none, .primitive .string, false⟩,
    ⟨"role", none, .union "GetUsers response users role" ["admin", "guest"], true⟩]

def usersRecord : Ty := .record "GetUsers response"
  [⟨"users", some "All users found", .array userRecord, false⟩,
    ⟨"tags", none, .array (.primitive .string), false⟩]

theorem recordOf_userFields : recordOf "GetUsers response" userFields = .ok (some usersRecord) := by
  -- level by level, since evaluating a tree at once repeats the levels below
  let userBranches : List (String × Branch) :=
    [("name", .mk (some (typed "users.name" "String")) []), ("role", .mk (some roleDeclaration) [])]
  let users : Branch := .mk (some usersDeclaration) userBranches
  let tags : Branch := .mk (some (typed "tags" " string [] ")) []
  have hbranches : branchesOf userFields = .ok [("users", users), ("tags", tags)] := rfl
  have huser : membersOf "GetUsers response users" userBranches =
      .ok [⟨"name", none, .primitive .string, false⟩,
        ⟨"role", none, .union "GetUsers response users role" ["admin", "guest"], true⟩] := rfl
  have husers : typeOf ("GetUsers response" ++ " " ++ "users") users = .ok (.array userRecord) := by
    change typeOf "GetUsers response users" users = _
    rw [typeOf, huser]
    rfl
  have htags : membersOf "GetUsers response" [("tags", tags)] =
      .ok [⟨"tags", none, .array (.primitive .string), false⟩] := rfl
  have hmembers : membersOf "GetUsers response" [("users", users), ("tags", tags)] =
      .ok [⟨"users", some "All users found", .array userRecord, false⟩,
        ⟨"tags", none, .array (.primitive .string), false⟩] := by
    rw [membersOf, husers, htags]
    rfl
  simp only [recordOf, hbranches, bind, Except.bind, hmembers]
  rfl

/-- The record of a list of users follows the list of its fields. -/
theorem users_follow_fields :
    recordOf "GetUsers response" userFields = .ok (some usersRecord) ∧
      ∃ placed members, List.Forall₂ IsPlaced userFields placed ∧
        usersRecord = .record "GetUsers response" members ∧
        (∀ path part, usersRecord.Nests path part →
          FollowsFields "GetUsers response" placed path part) ∧
        ∀ t ∈ usersRecord :: usersRecord.referenced, t.name?.isSome → usersRecord.HasPart t :=
  ⟨recordOf_userFields, record_follows_fields recordOf_userFields⟩

end Parts

end ApiDoc

end ApiBindings
