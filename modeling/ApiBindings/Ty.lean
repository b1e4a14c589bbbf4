/-!
# Types of an API

A type is a primitive, an array, a map, a union of labels or a record. Only unions and records have
a name, under which a client declares them; the others are written out wherever they are used.
-/

namespace ApiBindings

/-- A type without parts that every target language has. -/
inductive Primitive where
  | string
  | boolean
  | integer
  | float
  | double
  deriving DecidableEq, Repr

namespace Primitive

/-- All primitive types. -/
def all : List Primitive := [string, boolean, integer, float, double]

/-- The name of a primitive type. -/
def name : Primitive → String
  | string => "string"
  | boolean => "boolean"
  | integer => "integer"
  | float => "float"
  | double => "double"

/-- The primitive type of a name. -/
def ofName? (name : String) : Option Primitive := all.find? fun p => p.name == name

@[simp] theorem ofName?_name (p : Primitive) : ofName? p.name = some p := by cases p <;> rfl

end Primitive

mutual

/-- A type of an API. -/
inductive Ty where
  | primitive (p : Primitive)
  | array (element : Ty)
  | map (key value : Ty)
  | union (name : String) (cases : List String)
  | record (name : String) (members : List Member)

/-- A field of a record. -/
structure Member where
  name : String
  description : Option String
  ty : Ty
  isOptional : Bool

end

deriving instance Repr for Ty, Member

namespace Ty

/-- The name under which a type is declared. -/
def name? : Ty → Option String
  | union name _ => some name
  | record name _ => some name
  | _ => none

/-- The type under another name; a type without a name stays as it is. -/
def withName (name : String) : Ty → Ty
  | union _ cases => union name cases
  | record _ members => record name members
  | ty => ty

/-- The types directly below a type. -/
def children : Ty → List Ty
  | primitive _ => []
  | array element => [element]
  | map key value => [key, value]
  | union _ _ => []
  | record _ members => members.map (·.ty)

mutual

/-- All types below a type. -/
def referenced : Ty → List Ty
  | primitive _ => []
  | array element => element :: referenced element
  | map key value => key :: value :: (referenced key ++ referenced value)
  | union _ _ => []
  | record _ members => referencedByMembers members

/-- The types of the members of a record, each followed by all types below it. -/
def referencedByMembers : List Member → List Ty
  | [] => []
  | ⟨_, _, ty, _⟩ :: members => ty :: referenced ty ++ referencedByMembers members

end

/-- Whether a type is a record without members. -/
def isStub : Ty → Bool
  | record _ [] => true
  | _ => false

/-- Whether a type is a record that has members. -/
def hasMembers : Ty → Bool
  | record _ (_ :: _) => true
  | _ => false

@[simp] theorem name?_record (n : String) (ms : List Member) : (record n ms).name? = some n := rfl

@[simp] theorem name?_union (n : String) (cs : List String) : (union n cs).name? = some n := rfl

@[simp] theorem name?_withName (n : String) (ty : Ty) :
    (ty.withName n).name? = ty.name?.map fun _ => n := by cases ty <;> rfl

@[simp] theorem children_withName (n : String) (ty : Ty) :
    (ty.withName n).children = ty.children := by cases ty <;> rfl

@[simp] theorem hasMembers_withName (n : String) (ty : Ty) :
    (ty.withName n).hasMembers = ty.hasMembers := by
  cases ty with
  | record name members => cases members <;> rfl
  | _ => rfl

@[simp] theorem isStub_withName (n : String) (ty : Ty) : (ty.withName n).isStub = ty.isStub := by
  cases ty with
  | record name members => cases members <;> rfl
  | _ => rfl

theorem sizeOf_lt_of_mem {members : List Member} {m : Member} (h : m ∈ members) (name : String) :
    sizeOf m.ty < sizeOf (record name members) := by
  have hlt := List.sizeOf_lt_of_mem h
  obtain ⟨key, description, ty, isOptional⟩ := m
  simp only [Member.mk.sizeOf_spec, record.sizeOf_spec] at hlt ⊢
  omega

theorem sizeOf_lt_of_mem_children {ty child : Ty} (h : child ∈ ty.children) :
    sizeOf child < sizeOf ty := by
  cases ty with
  | primitive p => cases h
  | union name cases => cases h
  | array element =>
    rw [children, List.mem_singleton] at h
    simp [h]
  | map key value =>
    simp only [children, List.mem_cons, List.not_mem_nil, or_false] at h
    rcases h with h | h
    · rw [h, map.sizeOf_spec]
      omega
    · rw [h, map.sizeOf_spec]
      omega
  | record name members =>
    obtain ⟨m, hm, rfl⟩ := List.mem_map.1 h
    exact sizeOf_lt_of_mem hm name

/-- A named type with a type below it is a record that has members. -/
theorem hasMembers_of_mem_children {ty child : Ty} {name : String} (hc : child ∈ ty.children)
    (hn : ty.name? = some name) : ty.hasMembers := by
  cases ty with
  | record n members =>
    cases members with
    | nil => cases hc
    | cons m members => rfl
  | union n cases => cases hc
  | _ => cases hn

theorem isStub_of_hasMembers {ty : Ty} (h : ty.hasMembers) : ty.isStub = false := by
  cases ty with
  | record n members =>
    cases members with
    | nil => cases h
    | cons m members => rfl
  | _ => rfl

end Ty

end ApiBindings
