import ApiClientGen.Schema.Record

/-!
References from a resource to models, by the ids of the models. A reference dangles when the
resource has no model of that id.
-/
namespace ApiClientGen

def primitiveTags : List String := ["integer", "number", "string", "boolean", "void"]

/-- The ids to which a property refers, through the items of arrays. -/
def Property.refs : Property → List String
  | ⟨some "array", _, some inner, _, _, _⟩ => inner.refs
  | property => (nonempty? property.ref).toList

def Operation.returnRefs (operation : Operation) : List String :=
  if operation.type = some "array" then
    match operation.items with
    | some inner => inner.refs
    | none => []
  else match nonempty? operation.type with
    | some tag => if tag ∈ primitiveTags then [] else [tag]
    | none => []

def Parameter.isEnumerated (parameter : Parameter) : Bool :=
  match parameter.enum with
  | some (_ :: _) => true
  | _ => false

/-- The ids to which a parameter refers: the type of a body that is not restricted to a list. -/
def Parameter.refs (parameter : Parameter) : List String :=
  if parameter.location = some .body ∧ ¬ parameter.isEnumerated then
    (nonempty? parameter.type).toList
  else []

/-- The ids to which an operation refers, its bodies before its result. -/
def Operation.refs (operation : Operation) : List String :=
  operation.parameters.flatMap Parameter.refs ++ operation.returnRefs

def Model.refs (model : Model) : List String :=
  model.properties.values.flatMap Property.refs

def Resource.refs (resource : Resource) : List String :=
  resource.models.values.flatMap Model.refs ++ resource.operations.flatMap Operation.refs

/-- The distinct ids to which a resource refers, in the order in which they are first met. -/
def Resource.referencedModels (resource : Resource) : List String :=
  resource.refs.eraseDups

/-- The references that no model of the resource answers, in increasing order. -/
def Resource.danglingReferences (resource : Resource) : List String :=
  (resource.referencedModels.filter fun id => (resource.models.find? id).isNone).mergeSort
    fun a b => a ≤ b

end ApiClientGen
