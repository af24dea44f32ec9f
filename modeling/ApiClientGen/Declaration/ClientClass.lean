import ApiClientGen.Declaration.Interface
import ApiClientGen.Declaration.Method

/-!
The file of a client class: a method for each operation of a resource. The interfaces that its
methods name either stand in the same file or are imported from files of their own.
-/
namespace ApiClientGen.Declaration

open Text

/-- What stands in front of a class: the interfaces themselves, or imports of them. -/
inductive Surroundings
  | inline (interfaces : List Interface) (options : List Options)
  | imported (names : List String)

structure ClientClass where
  surroundings : Surroundings
  comment : String
  name : String
  basePath : String
  methods : List Method

/-- The names that the class of a resource imports: for each operation its options and the models
that its result names. -/
def classImports (resource : Resource) : List String :=
  importList (resource.operations.flatMap fun operation =>
    operation.optionsName ::
      operation.returnRefs.map fun id => Naming.interfaceName (some id))

def classOf (split docs : Bool) (name : String) (resource : Resource) : ClientClass where
  surroundings :=
    if split then .imported (classImports resource)
    else .inline (resource.models.values.map (interfaceOf false))
      (resource.operations.map (optionsOf false))
  comment := descriptionLine resource.description
  name := name
  basePath := resource.basePath
  methods := resource.targets.map fun target => methodOf docs target.1 target.2

def spaced (block : List String) : List String := "" :: block

def Surroundings.lines : Surroundings → List String
  | .inline interfaces options =>
    importLine "Api, IOperationOptions" "./Api" ::
      (interfaces.flatMap fun interface => spaced interface.lines) ++
      (options.flatMap fun options => spaced options.lines)
  | .imported names =>
    importLine "Api" "./Api" ::
      names.map fun name => importLine name ("./interfaces/" ++ name)

def ClientClass.body (file : ClientClass) : List String :=
  [""] ++ commentLines "" file.comment ++
    ["export class " ++ file.name ++ " extends Api \x7b",
      "  constructor(token: string) \x7b",
      "    super(\x7b url: '" ++ file.basePath ++ "', token \x7d);",
      "  \x7d"] ++
    (file.methods.flatMap fun method => spaced method.lines) ++ ["\x7d"]

def ClientClass.lines (file : ClientClass) : List String :=
  file.surroundings.lines ++ file.body

def classText (split docs : Bool) (name : String) (resource : Resource) : String :=
  unlines (classOf split docs name resource).lines

end ApiClientGen.Declaration
