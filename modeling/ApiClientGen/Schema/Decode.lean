import ApiClientGen.Json.Value
import ApiClientGen.Schema.Record
import ApiClientGen.Schema.Violation

/-!
Records from document values. A field is looked up under the name it has on the wire, then under
its plain name; what is not a field is ignored. Every departure from the shape is reported, in the
order of the fields.
-/
namespace ApiClientGen.Schema

variable {α : Type}

abbrev Fields := List (String × Json)

/-- The value of a field and the key under which it was found. -/
def field? (fields : Fields) (wire plain : String) : Option (String × Json) :=
  match Entries.find? wire fields with
  | some value => some (wire, value)
  | none => (Entries.find? plain fields).map (plain, ·)

def optionalField (fields : Fields) (wire plain : String) (absent : α)
    (read : Json → Checked α) : Checked α :=
  match field? fields wire plain with
  | some (key, value) => (read value).under (.key key)
  | none => .good absent

def requiredField (fields : Fields) (name : String) (read : Json → Checked α) : Checked α :=
  match field? fields name name with
  | some (key, value) => (read value).under (.key key)
  | none => .bad [⟨[.key name], .missing⟩]

def nullable (read : Json → Checked α) : Json → Checked (Option α)
  | .null => .good none
  | value => some <$> read value

def readText : Json → Checked String
  | .string text => .good text
  | _ => .fail .notText

def indexed (start : Nat) : List α → List (Step × α)
  | [] => []
  | item :: rest => (.index start, item) :: indexed (start + 1) rest

def readList (read : Json → Checked α) : Json → Checked (List α)
  | .list items => Checked.traverse read (indexed 0 items)
  | _ => .fail .notList

def readMapping (read : Json → Checked α) : Json → Checked (OrderedMap String α)
  | .object fields =>
    (fun values => OrderedMap.ofList ((fields.map Prod.fst).zip values)) <$>
      Checked.traverse read (fields.map fun field => (.key field.1, field.2))
  | _ => .fail .notMapping

def Location.ofWord? : String → Option Location
  | "query" => some .query
  | "path" => some .path
  | "body" => some .body
  | "header" => some .header
  | "form" => some .form
  | _ => none

def readLocation : Json → Checked Location
  | .string word =>
    match Location.ofWord? word with
    | some location => .good location
    | none => .fail .notLocation
  | _ => .fail .notLocation

def flagWord? (word : String) : Option Bool :=
  if word ∈ ["0", "off", "f", "false", "n", "no"] then some false
  else if word ∈ ["1", "on", "t", "true", "y", "yes"] then some true
  else none

/-- The least power of two that is no signed integer of 64 bits. -/
def wordLimit : Int := 0x8000000000000000

def flagOfInt (n : Int) : Checked Bool :=
  if n = 0 then .good false
  else if n = 1 then .good true
  else if -wordLimit ≤ n ∧ n < wordLimit then .fail .unreadableFlag
  else .fail .notFlag

/-- A flag: a truth value, zero or one, or one of the words for it. A binary number counts when it
is an integer strictly between the bounds of 64 bits. -/
def readFlag : Json → Checked Bool
  | .bool value => .good value
  | .int n => flagOfInt n
  | .float x =>
    match x.toInt? with
    | some n => if -wordLimit < n then flagOfInt n else .fail .notFlag
    | none => .fail .notFlag
  | .string text =>
    match flagWord? (String.ofList (text.toList.map Char.toLower)) with
    | some value => .good value
    | none => .fail .unreadableFlag
  | _ => .fail .notFlag

/-- A property in which at most `allowance` properties stand in a chain, itself included. -/
def readProperty : (allowance : Nat) → Json → Checked Property
  | 0, _ => .fail .tooDeep
  | allowance + 1, .object fields =>
    Property.mk <$> optionalField fields "type" "type" none (nullable readText)
      <*> optionalField fields "$ref" "ref" none (nullable readText)
      <*> optionalField fields "items" "items" none (nullable (readProperty allowance))
      <*> optionalField fields "description" "description" none (nullable readText)
      <*> optionalField fields "format" "format" none (nullable readText)
      <*> optionalField fields "enum" "enum" none (nullable (readList readText))
  | _ + 1, _ => .fail (.notRecord .property)

/-- How many properties may stand in a chain below another record. -/
def chainLimit : Nat := 254

def readModel : Json → Checked Model
  | .object fields =>
    Model.mk <$> optionalField fields "id" "id" none (nullable readText)
      <*> optionalField fields "description" "description" none (nullable readText)
      <*> optionalField fields "required" "required" [] (readList readText)
      <*> optionalField fields "properties" "properties" OrderedMap.empty
        (readMapping (readProperty chainLimit))
  | _ => .fail (.notRecord .model)

def readParameter : Json → Checked Parameter
  | .object fields =>
    Parameter.mk <$> requiredField fields "name" readText
      <*> optionalField fields "paramType" "param_type" none (nullable readLocation)
      <*> optionalField fields "required" "required" false readFlag
      <*> optionalField fields "enum" "enum" none (nullable (readList readText))
      <*> optionalField fields "description" "description" none (nullable readText)
      <*> optionalField fields "type" "type" none (nullable readText)
      <*> optionalField fields "format" "format" none (nullable readText)
  | _ => .fail (.notRecord .parameter)

def readOperation : Json → Checked Operation
  | .object fields =>
    Operation.mk <$> requiredField fields "method" readText
      <*> requiredField fields "nickname" readText
      <*> optionalField fields "summary" "summary" none (nullable readText)
      <*> optionalField fields "notes" "notes" none (nullable readText)
      <*> optionalField fields "type" "type" none (nullable readText)
      <*> optionalField fields "items" "items" none (nullable (readProperty chainLimit))
      <*> optionalField fields "parameters" "parameters" [] (readList readParameter)
  | _ => .fail (.notRecord .operation)

def readApi : Json → Checked Api
  | .object fields =>
    Api.mk <$> requiredField fields "path" readText
      <*> optionalField fields "description" "description" none (nullable readText)
      <*> optionalField fields "operations" "operations" [] (readList readOperation)
  | _ => .fail (.notRecord .api)

def readResource : Json → Checked Resource
  | .object fields =>
    Resource.mk <$> optionalField fields "apiVersion" "api_version" none (nullable readText)
      <*> optionalField fields "swaggerVersion" "swagger_version" none (nullable readText)
      <*> optionalField fields "basePath" "base_path" "" readText
      <*> optionalField fields "resourcePath" "resource_path" none (nullable readText)
      <*> optionalField fields "description" "description" none (nullable readText)
      <*> optionalField fields "models" "models" OrderedMap.empty (readMapping readModel)
      <*> optionalField fields "apis" "apis" [] (readList readApi)
  | _ => .fail (.notRecord .resource)

def readListingEntry : Json → Checked ListingEntry
  | .object fields =>
    ListingEntry.mk <$> requiredField fields "path" readText
      <*> optionalField fields "description" "description" none (nullable readText)
  | _ => .fail (.notRecord .listingEntry)

def readListing : Json → Checked Listing
  | .object fields =>
    Listing.mk <$> optionalField fields "apiVersion" "api_version" none (nullable readText)
      <*> optionalField fields "swaggerVersion" "swagger_version" none (nullable readText)
      <*> optionalField fields "basePath" "base_path" none (nullable readText)
      <*> requiredField fields "apis" (readList readListingEntry)
  | _ => .fail (.notRecord .listing)

end ApiClientGen.Schema
