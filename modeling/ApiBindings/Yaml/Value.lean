import ApiBindings.Yaml.Node

/-!
# Reading YAML

YAML can be loaded in more than one way, since a loader decides which types of scalars and which
tags it knows, so whatever loads YAML takes a loader. The one at the end knows the common part:
null, truth values, numbers, dates without a time of day, texts, sequences and mappings. A date with
a time of day is a text to it, and binary data, sets and an alias inside of its own anchor are no
YAML.

The value of a document is that of its node. Keys must be scalars, and a key that comes again takes
the last value and keeps its first place. When several parts have no value, the trouble nearest to
the root is reported, and of several equally near the first.
-/

namespace ApiBindings.Yaml

/-- Why a text has no value: it is no YAML text, or a scalar in it stands for nothing. -/
inductive Trouble where
  | malformed
  | unreadable (m : Misuse)
  deriving DecidableEq, Repr

/-- A way to load YAML: the value that a text holds, or why it has none. -/
abbrev Loader := String → Except Trouble Value

/-- Trouble and how many levels below the root it is. -/
structure Report where
  depth : Nat
  trouble : Trouble
  deriving DecidableEq, Repr

/-- The trouble nearer to the root, the first if both are equally near. -/
def Report.nearer (a b : Report) : Report := if b.depth < a.depth then b else a

/-- Two values, or the nearer trouble of the two. -/
def both {α β : Type} : Except Report α → Except Report β → Except Report (α × β)
  | .ok a, .ok b => .ok (a, b)
  | .ok _, .error f => .error f
  | .error f, .ok _ => .error f
  | .error f, .error g => .error (f.nearer g)

/-- The value of a scalar. -/
def scalarValue (tag : Tag) (s : String) : Except Trouble Scalar :=
  let number := fun (v : Option Scalar) =>
    match v with
    | some v => .ok v
    | none => .error (.unreadable .unreadableScalar)
  match tag with
  | .null => .ok .null
  | .text => .ok (.text s)
  | .bool =>
    match boolValue? s with
    | some b => .ok (.bool b)
    | none => .error (.unreadable (.missingEntry s))
  | .int => number ((intValue? s).map .int)
  | .float => number ((floatValue? s).map .float)
  | .date => number ((dateValue? s).map .date)
  | .sequence | .mapping | .merge | .standard | .unknown => .error .malformed

/-- A report about a node of the wrong kind for its tag. A tag of a collection is looked at one
level further down. -/
def misplaced (depth : Nat) (tag : Tag) : Report :=
  ⟨match tag with
    | .sequence | .mapping => depth + 1
    | _ => depth,
    .malformed⟩

namespace Node

/-- The value of a scalar node; no other node is a key. -/
def keyValue (depth : Nat) : Node → Except Report Scalar
  | .scalar tag s => (scalarValue tag s).mapError (⟨depth, ·⟩)
  | _ => .error ⟨depth, .malformed⟩

mutual

/-- The value of a node that is `depth` levels below the root. -/
def value (depth : Nat) : Node → Except Report Value
  | .scalar tag s =>
    match tag with
    | .sequence | .mapping => .error (misplaced depth tag)
    | _ => ((scalarValue tag s).mapError (⟨depth, ·⟩)).map Value.scalar
  | .sequence tag items =>
    match tag with
    | .sequence => (itemValues (depth + 1) items).map Value.list
    | _ => .error (misplaced depth tag)
  | .mapping tag entries =>
    match tag with
    | .mapping => (entryValues (depth + 1) entries).map fun es => .mapping (Table.ofList es)
    | _ => .error (misplaced depth tag)

/-- The values of items. -/
def itemValues (depth : Nat) : List Node → Except Report (List Value)
  | [] => .ok []
  | n :: ns => (both (value depth n) (itemValues depth ns)).map fun (v, vs) => v :: vs

/-- The values of entries. -/
def entryValues (depth : Nat) : List (Node × Node) → Except Report (List (Scalar × Value))
  | [] => .ok []
  | (k, n) :: es =>
    (both (both (k.keyValue depth) (value depth n)) (entryValues depth es)).map
      fun (e, es) => e :: es

end

end Node

/-- The loader of the common part of YAML. -/
def read (text : String) : Except Trouble Value :=
  match tokens? text.toList >>= Node.ofTokens? with
  | none => .error .malformed
  | some n => (n.value 0).mapError (·.trouble)

end ApiBindings.Yaml
