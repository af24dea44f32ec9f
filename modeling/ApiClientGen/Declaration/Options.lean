import ApiClientGen.Declaration.Import
import ApiClientGen.Declaration.MemberKey
import ApiClientGen.Text.Comment
import ApiClientGen.Text.Lines

/-!
The options of an operation: its parameters in groups by location. A group is optional when each
of its parameters is; a parameter without a location is in no group.
-/
namespace ApiClientGen.Declaration

open Text

structure OptionMember where
  name : String
  type : String
  optional : Bool
  comment : String
  values : List String
  deriving DecidableEq, Repr

structure OptionGroup where
  location : Location
  members : List OptionMember
  deriving DecidableEq, Repr

def groupOrder : List Location := [.body, .query, .path, .header, .form]

def groupField : Location → String
  | .body => "body"
  | .query => "query"
  | .path => "params"
  | .header => "headerParams"
  | .form => "form"

def OptionGroup.field (group : OptionGroup) : String := groupField group.location

def OptionGroup.optional (group : OptionGroup) : Bool := group.members.all OptionMember.optional

def optionMemberOf (parameter : Parameter) : OptionMember where
  name := parameter.name
  type := parameter.typeName
  optional := !parameter.required
  comment := descriptionLine parameter.description
  values := parameter.enum.getD []

def groupAt? (operation : Operation) (location : Location) : Option OptionGroup :=
  match operation.parameters.filter fun parameter => parameter.location = some location with
  | [] => none
  | found => some ⟨location, found.map optionMemberOf⟩

def groupsOf (operation : Operation) : List OptionGroup :=
  groupOrder.filterMap (groupAt? operation)

/-- The options of an operation. When they have a file of their own they import the base options
and the listed names. -/
structure Options where
  name : String
  split : Bool
  imports : List String
  groups : List OptionGroup
  deriving DecidableEq, Repr

/-- The names that the options of an operation import when they have a file of their own. -/
def optionsImports (operation : Operation) : List String :=
  importList ((operation.parameters.filter fun parameter =>
    parameter.location = some .body ∧ ¬ parameter.isEnumerated).map fun parameter =>
      Naming.interfaceName parameter.type)

def optionsOf (split : Bool) (operation : Operation) : Options where
  name := operation.optionsName
  split := split
  imports := if split then optionsImports operation else []
  groups := groupsOf operation

def OptionMember.lines (member : OptionMember) : List String :=
  commentLines "    " member.comment ++
    ["    " ++ memberKey member.name ++ optionalMark member.optional ++ ": " ++
      member.type ++ ";"]

def OptionGroup.lines (group : OptionGroup) : List String :=
  ["  " ++ group.field ++ optionalMark group.optional ++ ": \x7b"] ++
    group.members.flatMap OptionMember.lines ++ ["  \x7d;"]

def Options.header (options : Options) : List String :=
  if options.split then
    importLine "IOperationOptions" "../Api" ::
      options.imports.map (fun name => importLine name ("./" ++ name)) ++ [""]
  else []

def Options.body (options : Options) : List String :=
  ["export interface " ++ options.name ++ " extends IOperationOptions \x7b"] ++
    options.groups.flatMap OptionGroup.lines ++ ["\x7d"]

def Options.lines (options : Options) : List String :=
  options.header ++ options.body

def optionsText (split : Bool) (operation : Operation) : String :=
  unlines (optionsOf split operation).lines

end ApiClientGen.Declaration
