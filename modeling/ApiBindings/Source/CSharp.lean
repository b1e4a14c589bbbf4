import ApiBindings.Declarations
import ApiBindings.Source.Language
import ApiBindings.Text.Alphanumeric
import ApiBindings.Versions

/-!
# C# clients

A record is declared as a class whose properties carry the names of the members, and a union as an
enumeration. Every resource of a version is a static class of asynchronous functions, in a namespace
for the version.
-/

namespace ApiBindings.Source.CSharp

/-- Whether a primitive type needs a question mark to be optional. -/
def isValueType : Primitive → Bool
  | .string => false
  | .boolean | .integer | .float | .double => true

def memberType (m : Member) : String :=
  let ref := Language.cSharp.typeRef m.ty
  match m.ty with
  | .primitive p => if m.isOptional && isValueType p then ref ++ "?" else ref
  | _ => ref

/-- The namespace of a version: that of the client, with a part for the version if it has a
label. -/
def versionNamespace (version : String) : String :=
  if version = "" then "Sdk"
  else
    "Sdk.V" ++ String.ofList (version.toList.map fun c =>
      if Text.isAlphanumeric c then c else '_')

/-- A description as a comment, indented. -/
def summaryLines (indent description : String) : List String :=
  [indent ++ "/// <summary>", indent ++ "/// " ++ description, indent ++ "/// </summary>"]

/-- A property of a class, below its description and the name of the member. -/
def memberLines (m : Member) : List String :=
  (match m.description with
    | some "" => []
    | some description => summaryLines "    " description
    | none => []) ++
  ["    [JsonProperty(\"" ++ m.name ++ "\")]",
   "    public " ++ memberType m ++ " " ++ Language.cSharp.memberName m.name ++
     " \x7b get; set; \x7d"]

/-- The labels of an enumeration, with commas between them. -/
def caseLines : List String → List String
  | [] => []
  | [label] => ["    " ++ Text.pascalCase label]
  | label :: labels => ("    " ++ Text.pascalCase label ++ ",") :: caseLines labels

/-- The declaration of a type, after an empty line. -/
def declarationLines (name : String) : Ty → List String
  | .record _ members =>
    ["", "public class " ++ Language.cSharp.typeName name, "\x7b"] ++
      members.flatMap memberLines ++ ["\x7d"]
  | .union _ cases =>
    ["", "public enum " ++ Language.cSharp.typeName name, "\x7b"] ++ caseLines cases ++ ["\x7d"]
  | _ => []

/-- The function of a route, below its description. -/
def functionLines (r : Route) : List String :=
  let response := Language.cSharp.optionalTypeRef r.response
  summaryLines "        " (r.description.getD "") ++
  ["        public static async Task<" ++ response ++ "> " ++ Language.cSharp.functionName r.name ++
     "(" ++ Language.cSharp.parameterList r ++ ")",
   "        \x7b",
   "            var request = new HttpRequestMessage",
   "            \x7b",
   "                Method = new HttpMethod(\"" ++ r.method.name ++ "\"),",
   "                RequestUri = new Uri(global::Sdk.SdkSettings.ApiUrl, $\"" ++
     Language.cSharp.urlTemplate r ++ "\")",
   "            \x7d;",
   "            request.Headers.Authorization = new AuthenticationHeaderValue(\"Bearer\", " ++
     "global::Sdk.SdkSettings.AccessToken);"] ++
  (if r.payload.isSome then
    ["            request.Content = new StringContent(JsonConvert.SerializeObject(payload), " ++
       "Encoding.UTF8, \"application/json\");"]
   else []) ++
  ["",
   "            var response = await " ++
     "global::Sdk.SdkSettings.HttpClient.SendAsync(request).ConfigureAwait(false);",
   "            var responseBody = await " ++
     "response.Content.ReadAsStringAsync().ConfigureAwait(false);",
   "",
   "            return JsonConvert.DeserializeObject<" ++ response ++ ">(responseBody);",
   "        \x7d"]

/-- The functions of a resource, with an empty line between them. -/
def functionsLines : List Route → List String
  | [] => []
  | [r] => functionLines r
  | r :: routes => functionLines r ++ [""] ++ functionsLines routes

/-- The class of a resource, after an empty line. -/
def resourceLines (version : String) (resource : Resource) : List String :=
  ["",
   "namespace " ++ versionNamespace version,
   "\x7b",
   "    public static partial class " ++ Language.cSharp.typeName resource.name ++ "Api",
   "    \x7b"] ++
  functionsLines resource.routes ++
  ["    \x7d",
   "\x7d"]

def headerLines : List String :=
  ["// Generated by sdkgen. Do not edit.",
   "using System;",
   "using System.Collections.Generic;",
   "using System.Net.Http;",
   "using System.Net.Http.Headers;",
   "using System.Text;",
   "using System.Threading.Tasks;",
   "using Newtonsoft.Json;"]

/-- The settings that all functions share, after an empty line. -/
def settingsLines : List String :=
  ["",
   "namespace Sdk",
   "\x7b",
   "    public static class SdkSettings",
   "    \x7b",
   "        public static HttpClient HttpClient \x7b get; set; \x7d = new HttpClient();",
   "        public static Uri ApiUrl \x7b get; set; \x7d",
   "        public static string AccessToken \x7b get; set; \x7d",
   "    \x7d",
   "\x7d"]

def clientLines (d : Declarations) (versions : List Version) : List String :=
  headerLines ++
  (d.entries.flatMap fun e => declarationLines e.1 e.2) ++
  settingsLines ++
  versions.flatMap fun version => version.resources.flatMap (resourceLines version.label)

end ApiBindings.Source.CSharp
