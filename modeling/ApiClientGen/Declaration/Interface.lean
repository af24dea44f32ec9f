import ApiClientGen.Declaration.Import
import ApiClientGen.Declaration.MemberKey
import ApiClientGen.Text.Comment
import ApiClientGen.Text.Lines

/-!
The interface of a model: a member for each property, in order. A member is optional unless the
model requires it.
-/
namespace ApiClientGen.Declaration

open Text

structure Member where
  key : String
  type : String
  optional : Bool
  comment : String
  deriving DecidableEq, Repr

def Member.lines (member : Member) : List String :=
  commentLines "  " member.comment ++
    ["  " ++ member.key ++ optionalMark member.optional ++ ": " ++ member.type ++ ";"]

/-- An interface with the names it imports from the files next to its own. -/
structure Interface where
  name : String
  imports : List String
  members : List Member
  deriving DecidableEq, Repr

def Interface.header (interface : Interface) : List String :=
  interface.imports.map (fun name => importLine name ("./" ++ name)) ++
    (if interface.imports.isEmpty then [] else [""])

def Interface.body (interface : Interface) : List String :=
  ["export interface " ++ interface.name ++ " \x7b"] ++
    interface.members.flatMap Member.lines ++ ["\x7d"]

def Interface.lines (interface : Interface) : List String :=
  interface.header ++ interface.body

def memberOf (required : List String) (name : String) (property : Property) : Member where
  key := memberKey name
  type := property.typeName
  optional := !required.contains name
  comment := descriptionLine property.description

/-- The names that the interface of a model imports when it has a file of its own. -/
def modelImports (model : Model) : List String :=
  importList ((model.refs.filter fun id => some id ≠ model.id).map fun id =>
    Naming.interfaceName (some id))

def interfaceOf (split : Bool) (model : Model) : Interface where
  name := model.interfaceName
  imports := if split then modelImports model else []
  members := model.properties.entries.map fun entry => memberOf model.required entry.1 entry.2

def interfaceText (split : Bool) (model : Model) : String :=
  unlines (interfaceOf split model).lines

end ApiClientGen.Declaration
