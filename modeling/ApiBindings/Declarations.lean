import ApiBindings.Fault
import ApiBindings.Table
import ApiBindings.Route

/-!
# Declarations

A client declares every named type once. Registering a type walks it from the top and declares the
names it meets, in the order in which they are met. A type whose name is taken is compared by its
definition, in which other named types count by name only: an equal definition is not walked again,
and neither is a record without members, which refers back to a record that contains it. A different
definition stops the walk, or replaces the earlier one if that is allowed.
-/

namespace ApiBindings

/-! ## Definitions -/

/-- A type as it is used inside a definition: a named type counts by its name. -/
inductive Use where
  | primitive (p : Primitive)
  | array (element : Use)
  | map (key value : Use)
  | named (name : String)
  deriving DecidableEq, Repr

/-- What a definition says of a member. -/
structure Field where
  name : String
  description : Option String
  isOptional : Bool
  use : Use
  deriving DecidableEq, Repr

/-- What is compared when a name is declared again. -/
inductive Definition where
  | record (name : String) (fields : List Field)
  | union (name : String) (cases : List String)
  | unnamed (use : Use)
  deriving DecidableEq, Repr

namespace Ty

/-- A type as it is used inside a definition. -/
def use : Ty → Use
  | primitive p => .primitive p
  | array element => .array element.use
  | map key value => .map key.use value.use
  | union name _ => .named name
  | record name _ => .named name

def definition : Ty → Definition
  | record name members =>
    .record name (members.map fun m => ⟨m.name, m.description, m.isOptional, m.ty.use⟩)
  | union name cases => .union name cases
  | ty => .unnamed ty.use

end Ty

/-! ## The table -/

/-- The declared types under their names, in the order of declaration. -/
structure Declarations where
  entries : List (String × Ty)

namespace Declarations

def empty : Declarations := ⟨[]⟩

def names (d : Declarations) : List String := Table.keys d.entries

def get? (d : Declarations) (name : String) : Option Ty := d.entries.lookup name

def size (d : Declarations) : Nat := d.entries.length

/-- Declares a type under a name; a name that is declared already keeps its place. -/
def declare (d : Declarations) (name : String) (ty : Ty) : Declarations :=
  ⟨Table.put name ty d.entries⟩

/-- What becomes of a named type that a walk meets. -/
inductive Verdict where
  | known
  | declared (table : Declarations)
  | conflict

/-- Decides about a named type. -/
def meet (replace : Bool) (name : String) (ty : Ty) (d : Declarations) : Verdict :=
  match d.get? name with
  | none => .declared (d.declare name ty)
  | some earlier =>
    if ty.isStub then .known
    else if earlier.definition = ty.definition then .known
    else if replace then .declared (d.declare name ty)
    else .conflict

/-- The end of a walk: the table it leaves, and the name that stopped it, if one did. -/
structure Walk where
  table : Declarations
  conflict : Option String

/-- Walks on, unless a conflict has stopped the walk. -/
def Walk.andThen (w : Walk) (next : Declarations → Walk) : Walk :=
  match w.conflict with
  | none => next w.table
  | some _ => w

mutual

/-- Registers a type and the types below it. -/
def register (replace : Bool) : Ty → Declarations → Walk
  | .primitive _, d => ⟨d, none⟩
  | .array element, d => register replace element d
  | .map key value, d => (register replace key d).andThen (register replace value)
  | .union name cases, d =>
    match meet replace name (.union name cases) d with
    | .known => ⟨d, none⟩
    | .declared table => ⟨table, none⟩
    | .conflict => ⟨d, some name⟩
  | .record name members, d =>
    match meet replace name (.record name members) d with
    | .known => ⟨d, none⟩
    | .declared table => registerMembers replace members table
    | .conflict => ⟨d, some name⟩

def registerMembers (replace : Bool) : List Member → Declarations → Walk
  | [], d => ⟨d, none⟩
  | ⟨_, _, ty, _⟩ :: members, d =>
    (register replace ty d).andThen (registerMembers replace members)

end

def registerAll (replace : Bool) : List Ty → Declarations → Walk
  | [], d => ⟨d, none⟩
  | ty :: tys, d => (register replace ty d).andThen (registerAll replace tys)

/-- The table that a walk leaves, or the fault that stopped it. -/
def Walk.toExcept (w : Walk) : Except Fault Declarations :=
  match w.conflict with
  | none => .ok w.table
  | some name => .error (.conflictingType name)

/-- The types that the routes of an API use, declared route by route. -/
def ofRoutes (replace : Bool) (routes : List Route) : Except Fault Declarations :=
  (registerAll replace (routes.flatMap Route.types) empty).toExcept

end Declarations

/-- A table that is filled step by step, under a rule about replacing that may change. -/
structure Registry where
  declarations : Declarations
  replace : Bool

namespace Registry

/-- Registers a type; a conflict leaves what has been declared before it. -/
def register (r : Registry) (ty : Ty) : Registry × Except Fault Unit :=
  let walk := Declarations.register r.replace ty r.declarations
  (⟨walk.table, r.replace⟩, walk.toExcept.map fun _ => ())

def setReplace (r : Registry) (replace : Bool) : Registry := ⟨r.declarations, replace⟩

end Registry

end ApiBindings
