import ApiClientGen.OrderedMap

/-!
The records of a service description: a listing names the resources, a resource holds apis with
their operations and the models that these name.
-/
namespace ApiClientGen

def nonempty? : Option String → Option String
  | some "" => none
  | text => text

/-- A property of a model. An array property describes its items by a property of their own. -/
structure Property where
  type : Option String := none
  ref : Option String := none
  items : Option Property := none
  description : Option String := none
  format : Option String := none
  enum : Option (List String) := none

instance : Inhabited Property := ⟨{}⟩

structure Model where
  id : Option String := none
  description : Option String := none
  required : List String := []
  properties : OrderedMap String Property := OrderedMap.empty
  deriving Inhabited

inductive Location
  | query
  | path
  | body
  | header
  | form
  deriving DecidableEq, Repr

structure Parameter where
  name : String
  location : Option Location := none
  required : Bool := false
  enum : Option (List String) := none
  description : Option String := none
  type : Option String := none
  format : Option String := none
  deriving DecidableEq, Inhabited

structure Operation where
  method : String
  nickname : String
  summary : Option String := none
  notes : Option String := none
  type : Option String := none
  items : Option Property := none
  parameters : List Parameter := []
  deriving Inhabited

structure Api where
  path : String
  description : Option String := none
  operations : List Operation := []
  deriving Inhabited

structure Resource where
  apiVersion : Option String := none
  swaggerVersion : Option String := none
  basePath : String := ""
  resourcePath : Option String := none
  description : Option String := none
  models : OrderedMap String Model := OrderedMap.empty
  apis : List Api := []
  deriving Inhabited

def Api.targets (api : Api) : List (String × Operation) :=
  api.operations.map (api.path, ·)

def Resource.targets (resource : Resource) : List (String × Operation) :=
  resource.apis.flatMap Api.targets

def Resource.operations (resource : Resource) : List Operation :=
  resource.targets.map Prod.snd

structure ListingEntry where
  path : String
  description : Option String := none
  deriving DecidableEq, Inhabited

structure Listing where
  apiVersion : Option String := none
  swaggerVersion : Option String := none
  basePath : Option String := none
  apis : List ListingEntry
  deriving Inhabited

end ApiClientGen
