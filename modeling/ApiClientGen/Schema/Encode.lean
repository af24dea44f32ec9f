import ApiClientGen.Json.Value
import ApiClientGen.Schema.Record

/-!
Document values from records: every field is written, nulls and defaults included. A field that
has two names is written under the one that is asked for.
-/
namespace ApiClientGen.Schema

variable {α : Type}

/-- Which of its two names a field is written under. -/
inductive Naming
  | wire
  | plain
  deriving DecidableEq, Repr

def Naming.choose : Naming → String → String → String
  | .wire, onWire, _ => onWire
  | .plain, _, inPlain => inPlain

def writeOption (write : α → Json) : Option α → Json
  | none => .null
  | some value => write value

def writeList (write : α → Json) (values : List α) : Json := .list (values.map write)

def writeMapping (write : α → Json) (values : OrderedMap String α) : Json :=
  .object (values.entries.map fun entry => (entry.1, write entry.2))

def writeText? : Option String → Json := writeOption .string

def Location.word : Location → String
  | .query => "query"
  | .path => "path"
  | .body => "body"
  | .header => "header"
  | .form => "form"

def writeProperty (naming : Naming) : Property → Json
  | ⟨type, ref, items, description, format, enum⟩ =>
    .object [
      ("type", writeText? type),
      (naming.choose "$ref" "ref", writeText? ref),
      ("items", match items with
        | none => .null
        | some inner => writeProperty naming inner),
      ("description", writeText? description),
      ("format", writeText? format),
      ("enum", writeOption (writeList .string) enum)]

def writeModel (naming : Naming) (model : Model) : Json :=
  .object [
    ("id", writeText? model.id),
    ("description", writeText? model.description),
    ("required", writeList .string model.required),
    ("properties", writeMapping (writeProperty naming) model.properties)]

def writeParameter (naming : Naming) (parameter : Parameter) : Json :=
  .object [
    ("name", .string parameter.name),
    (naming.choose "paramType" "param_type",
      writeOption (.string ∘ Location.word) parameter.location),
    ("required", .bool parameter.required),
    ("enum", writeOption (writeList .string) parameter.enum),
    ("description", writeText? parameter.description),
    ("type", writeText? parameter.type),
    ("format", writeText? parameter.format)]

def writeOperation (naming : Naming) (operation : Operation) : Json :=
  .object [
    ("method", .string operation.method),
    ("nickname", .string operation.nickname),
    ("summary", writeText? operation.summary),
    ("notes", writeText? operation.notes),
    ("type", writeText? operation.type),
    ("items", writeOption (writeProperty naming) operation.items),
    ("parameters", writeList (writeParameter naming) operation.parameters)]

def writeApi (naming : Naming) (api : Api) : Json :=
  .object [
    ("path", .string api.path),
    ("description", writeText? api.description),
    ("operations", writeList (writeOperation naming) api.operations)]

def writeResource (naming : Naming) (resource : Resource) : Json :=
  .object [
    (naming.choose "apiVersion" "api_version", writeText? resource.apiVersion),
    (naming.choose "swaggerVersion" "swagger_version", writeText? resource.swaggerVersion),
    (naming.choose "basePath" "base_path", .string resource.basePath),
    (naming.choose "resourcePath" "resource_path", writeText? resource.resourcePath),
    ("description", writeText? resource.description),
    ("models", writeMapping (writeModel naming) resource.models),
    ("apis", writeList (writeApi naming) resource.apis)]

def writeListingEntry (entry : ListingEntry) : Json :=
  .object [("path", .string entry.path), ("description", writeText? entry.description)]

def writeListing (naming : Naming) (listing : Listing) : Json :=
  .object [
    (naming.choose "apiVersion" "api_version", writeText? listing.apiVersion),
    (naming.choose "swaggerVersion" "swagger_version", writeText? listing.swaggerVersion),
    (naming.choose "basePath" "base_path", writeText? listing.basePath),
    ("apis", writeList writeListingEntry listing.apis)]

end ApiClientGen.Schema
