import ApiClientGen.Naming.TypeName

/-!
Import lines, and the names that an import list holds.
-/
namespace ApiClientGen.Declaration

/-- The distinct names of a list in the order in which they are first met, without the type of
what is not described. -/
def importList (names : List String) : List String :=
  names.eraseDups.filter (· ≠ Naming.unknownType)

def importLine (names file : String) : String :=
  "import \x7b " ++ names ++ " \x7d from \"" ++ file ++ "\";"

def optionalMark (optional : Bool) : String := if optional then "?" else ""

def commentLines (indent comment : String) : List String :=
  if comment = "" then [] else [indent ++ "// " ++ comment]

end ApiClientGen.Declaration
