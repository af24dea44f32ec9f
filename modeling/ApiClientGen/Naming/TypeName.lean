import ApiClientGen.Declaration.Literal
import ApiClientGen.Schema.References
import ApiClientGen.Text.Case

/-!
The names of interfaces, options and methods, and the types of properties, parameters and results.
-/
namespace ApiClientGen

open Declaration

namespace Naming

def unknownType : String := "unknown"

/-- The name of the interface of a model; what has no id is of unknown type. -/
def interfaceName (id : Option String) : String :=
  match nonempty? id with
  | some id => "I" ++ id
  | none => unknownType

/-- The type that a tag stands for. A tag that is not known stands for itself. -/
def tagType (tag : Option String) : String :=
  match nonempty? tag with
  | some "integer" => "number"
  | some tag => tag
  | none => unknownType

def arrayOf (item : String) : String := item ++ "[]"

end Naming

open Naming

def Model.interfaceName (model : Model) : String := Naming.interfaceName model.id

def Operation.optionsName (operation : Operation) : String :=
  "I" ++ String.ofList (Text.upperFirst operation.nickname.toList) ++ "Options"

def Operation.methodName (operation : Operation) : String :=
  String.ofList (Text.lowerFirst operation.nickname.toList)

def Property.typeName : Property → String
  | ⟨some "array", _, some inner, _, _, _⟩ => arrayOf inner.typeName
  | property =>
    match nonempty? property.ref with
    | some id => Naming.interfaceName (some id)
    | none => tagType property.type

def Parameter.typeName (parameter : Parameter) : String :=
  match parameter.enum with
  | some (value :: rest) => literalUnion (value :: rest)
  | _ =>
    if parameter.location = some .body then Naming.interfaceName parameter.type
    else tagType parameter.type

def Operation.returnType (operation : Operation) : String :=
  if operation.type = some "array" then
    match operation.items with
    | some inner => arrayOf inner.typeName
    | none => arrayOf unknownType
  else match operation.type with
    | some tag =>
      if tag ∈ primitiveTags then tagType (some tag) else Naming.interfaceName (some tag)
    | none => unknownType

end ApiClientGen
