import ApiBindings.Declarations
import ApiBindings.Source.Language
import ApiBindings.Versions

/-!
# TypeScript clients

A record is declared as an interface and a union as an alias of its labels in quotes. Every route is
an asynchronous function that sends its payload, if it has one, and returns the body of the
response.
-/

namespace ApiBindings.Source.TypeScript

/-- A member of an interface, below its description. -/
def memberLines (m : Member) : List String :=
  (match m.description with
    | some "" => []
    | some description => ["    /** " ++ description ++ " */"]
    | none => []) ++
  ["    " ++ Language.typeScript.memberName m.name ++ (if m.isOptional then "?" else "") ++ ": " ++
    Language.typeScript.typeRef m.ty ++ ";"]

def labelUnion (cases : List String) : String :=
  " | ".intercalate (cases.map fun label => "'" ++ label ++ "'")

/-- The declaration of a type, after an empty line. -/
def declarationLines (name : String) : Ty → List String
  | .record _ members =>
    ["", "export interface " ++ Language.typeScript.typeName name ++ " \x7b"] ++
      members.flatMap memberLines ++ ["\x7d"]
  | .union _ cases =>
    ["", "export type " ++ Language.typeScript.typeName name ++ " = " ++ labelUnion cases ++ ";"]
  | _ => []

/-- The function of a route, after an empty line and its description. -/
def functionLines (r : Route) : List String :=
  ["",
   "/**",
   " * " ++ r.description.getD "",
   " */",
   "export async function " ++ Language.typeScript.functionName r.name ++ "(" ++
     Language.typeScript.parameterList r ++ "): Promise<" ++
     Language.typeScript.optionalTypeRef r.response ++ "> \x7b",
   "    const response = await axios(\x7b",
   "        method: '" ++ r.method.keyword ++ "',",
   "        url: `" ++ Language.typeScript.urlTemplate r ++ "`,"] ++
  (if r.payload.isSome then ["        data: payload,"] else []) ++
  ["    \x7d);",
   "",
   "    return response.data;",
   "\x7d"]

def clientLines (d : Declarations) (versions : List Version) : List String :=
  ["// Generated by sdkgen. Do not edit.",
   "import axios from 'axios';"] ++
  (d.entries.flatMap fun e => declarationLines e.1 e.2) ++
  versions.flatMap fun version => version.resources.flatMap fun resource =>
    resource.routes.flatMap functionLines

end ApiBindings.Source.TypeScript
