import ApiBindings.Route

/-!
# Reading types and routes

Types, members and routes have a written form of their own, apart from any API description: a
mapping from field names to values, where a type names its kind. Reading checks every part and
lists all flaws in the order of the fields. Behind a type the path to a flaw goes through the name
of its kind.
-/

namespace ApiBindings

open Value

def Value.checkList {α : Type} (check : Value → Checked α) : Value → Checked (List α)
  | .list items => Checked.sequence (items.map check) 0
  | _ => .flaw .notList

def Primitive.read : Value → Checked Primitive
  | .text s =>
    match ofName? s with
    | some p => .valid p
    | none => .flaw .notOneOf
  | _ => .flaw .notOneOf

def Method.read : Value → Checked Method
  | .text s =>
    match ofName? s with
    | some m => .valid m
    | none => .flaw .notOneOf
  | _ => .flaw .notOneOf

/-- The check of a field that may hold a type, with the proof that the type is a smaller value. -/
def checkSmaller {α : Type} (name : String) (entries : List (Scalar × Value))
    (check : (v : Value) → sizeOf v < sizeOf entries → Checked α) : Checked α :=
  Checked.under (.field name) <|
    match h : valueAt? (.text name) entries with
    | some v => check v (sizeOf_lt_of_valueAt? h)
    | none => .flaw .missing

mutual

def Ty.read (v : Value) : Checked Ty :=
  match v with
  | .mapping entries =>
    match valueAt? (.text "kind") entries with
    | none => .flaw .noKind
    | some (.text "primitive") =>
      Checked.under (.field "primitive") <|
        Ty.primitive <$> checkField "primitive" none Primitive.read entries
    | some (.text "array") =>
      Checked.under (.field "array") <|
        Ty.array <$> checkSmaller "element" entries fun v _ => Ty.read v
    | some (.text "map") =>
      Checked.under (.field "map") <|
        Ty.map <$> (checkSmaller "key" entries fun v _ => Ty.read v) <*>
          checkSmaller "value" entries fun v _ => Ty.read v
    | some (.text "union") =>
      Checked.under (.field "union") <|
        Ty.union <$> checkField "name" none checkText entries <*>
          checkField "cases" none (checkList checkText) entries
    | some (.text "record") =>
      Checked.under (.field "record") <|
        Ty.record <$> checkField "name" none checkText entries <*>
          Checked.under (.field "members")
            (match h : valueAt? (.text "members") entries with
            | none => .valid []
            | some (.list items) =>
              have := sizeOf_lt_of_valueAt? h
              Checked.sequence (items.attach.map fun m => Member.read m.val) 0
            | some _ => .flaw .notList)
    | some _ => .flaw .unknownKind
  | _ => .flaw .notTagged
termination_by sizeOf v
decreasing_by
  all_goals simp_wf
  · omega
  · omega
  · omega
  · have := List.sizeOf_lt_of_mem m.property
    simp at *
    omega

def Member.read (v : Value) : Checked Member :=
  match v with
  | .mapping entries =>
    Member.mk <$> checkField "name" none checkText entries <*>
      checkField "description" (some none) checkOptionalText entries <*>
      (checkSmaller "ty" entries fun v _ => Ty.read v) <*>
      checkField "is_optional" (some false) checkBool entries
  | _ => .flaw .notMapping
termination_by sizeOf v
decreasing_by
  all_goals simp_wf
  omega

end

def Ty.readOptional : Value → Checked (Option Ty)
  | .null => .valid none
  | v => some <$> Ty.read v

def UrlParameter.read : Value → Checked UrlParameter
  | .mapping entries =>
    UrlParameter.mk <$> checkField "name" none checkText entries <*>
      checkField "ty" (some .string) Primitive.read entries
  | _ => .flaw .notMapping

def Route.read : Value → Checked Route
  | .mapping entries =>
    Route.mk <$> checkField "name" none checkRouteName entries <*>
      checkField "description" (some none) checkDescription entries <*>
      checkField "method" none Method.read entries <*>
      checkField "url" none checkText entries <*>
      checkField "group" none checkText entries <*>
      checkField "version" (some "") checkText entries <*>
      checkField "url_parameters" (some []) (checkList UrlParameter.read) entries <*>
      checkField "payload_type" (some none) Ty.readOptional entries <*>
      checkField "return_type" (some none) Ty.readOptional entries
  | _ => .flaw .notMapping

end ApiBindings
