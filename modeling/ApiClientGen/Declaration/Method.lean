import ApiClientGen.Declaration.Options

/-!
The method of an operation, with a documentation block in front when there is something to say.
-/
namespace ApiClientGen.Declaration

open Text

structure Method where
  name : String
  optionsName : String
  optionsOptional : Bool
  returnType : String
  httpMethod : String
  path : String
  doc : List String
  deriving DecidableEq, Repr

def bracketed (name : String) (optional : Bool) : String :=
  if optional then "[" ++ name ++ "]" else name

def paramLine (type name : String) : String :=
  "@param \x7b" ++ type ++ "\x7d " ++ name

def memberRemark (member : OptionMember) : String :=
  let comment := docLine member.comment
  if member.values.isEmpty then comment
  else
    let values := String.intercalate ", " (member.values.map literal)
    String.ofList (trim (comment ++ " One of: " ++ values).toList)

def memberDoc (group : OptionGroup) (member : OptionMember) : String :=
  let name := "options." ++ group.field ++ "." ++ member.name
  let remark := memberRemark member
  paramLine member.type (bracketed name member.optional) ++
    (if remark = "" then "" else " - " ++ remark)

def groupDoc (group : OptionGroup) : List String :=
  paramLine "object" (bracketed ("options." ++ group.field) group.optional) ::
    group.members.map (memberDoc group)

/-- What is said about an operation: its summary, and its notes unless they repeat it. -/
def remarks (operation : Operation) : List String :=
  ((nonempty? operation.summary).map docLine).toList ++
    (if operation.notes = operation.summary then []
    else ((nonempty? operation.notes).map docLine).toList)

/-- Whether the options of an operation may be left out: no parameter is required. -/
def optionsOptional (operation : Operation) : Bool :=
  !operation.parameters.any Parameter.required

/-- The lines inside the documentation block of an operation; none when there are neither remarks
nor groups. -/
def docLines (operation : Operation) : List String :=
  let said := remarks operation
  let groups := groupsOf operation
  if said.isEmpty && groups.isEmpty then []
  else
    said ++ (if said.isEmpty then [] else [""]) ++
      [paramLine operation.optionsName (bracketed "options" (optionsOptional operation))] ++
      groups.flatMap groupDoc ++ ["@returns \x7bPromise<" ++ operation.returnType ++ ">\x7d"]

def methodOf (docs : Bool) (path : String) (operation : Operation) : Method where
  name := operation.methodName
  optionsName := operation.optionsName
  optionsOptional := optionsOptional operation
  returnType := operation.returnType
  httpMethod := String.ofList (upper operation.method.toList)
  path := path
  doc := if docs then docLines operation else []

def starred (line : String) : String :=
  if line = "" then "   *" else "   * " ++ line

def Method.docBlock (method : Method) : List String :=
  if method.doc.isEmpty then []
  else ["  /**"] ++ method.doc.map starred ++ ["   */"]

def Method.body (method : Method) : List String :=
  ["  async " ++ method.name ++ "(options" ++ optionalMark method.optionsOptional ++ ": " ++
      method.optionsName ++ "): Promise<" ++ method.returnType ++ "> \x7b",
    "    return this.requestJson<" ++ method.returnType ++ ">(\x7b method: '" ++
      method.httpMethod ++ "', path: '" ++ method.path ++ "', ...options \x7d);",
    "  \x7d"]

def Method.lines (method : Method) : List String :=
  method.docBlock ++ method.body

def methodText (docs : Bool) (path : String) (operation : Operation) : String :=
  unlines (methodOf docs path operation).lines

end ApiClientGen.Declaration
