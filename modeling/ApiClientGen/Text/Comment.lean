import ApiClientGen.Text.Blank

/-!
Free text made fit for comments: on one line, and in a documentation block also without the
sequence that would close the block.
-/
namespace ApiClientGen.Text

def oneLine (text : String) : String :=
  String.ofList (List.intercalate [' '] (words text.toList))

/-- Every `*/` gets a backslash between its two characters. -/
def defuse : List Char → List Char
  | '*' :: '/' :: rest => '*' :: '\\' :: '/' :: defuse rest
  | c :: rest => c :: defuse rest
  | [] => []

/-- A text on one line that cannot close the documentation block it stands in. -/
def docLine (text : String) : String :=
  String.ofList (defuse (oneLine text).toList)

def descriptionLine (description : Option String) : String :=
  match description with
  | some text => oneLine text
  | none => ""

end ApiClientGen.Text
