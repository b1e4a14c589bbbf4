import ApiBindings.Source.CSharp
import ApiBindings.Source.TypeScript

/-!
# Clients

The source text of a client declares the types and then the functions, version by version and
resource by resource.
-/

namespace ApiBindings.Source

def client (language : Language) (d : Declarations) (versions : List Version) : String :=
  ofLines <|
    match language with
    | .typeScript => TypeScript.clientLines d versions
    | .cSharp => CSharp.clientLines d versions

end ApiBindings.Source
