import ApiClientGen.Text.Blank

/-!
Text as lines. Every line is closed by a line feed; cutting at the line feeds gives the lines
back, provided that none of them holds one.
-/
namespace ApiClientGen.Text

def unlines (lines : List String) : String :=
  String.join (lines.map (· ++ "\n"))

@[simp] theorem unlines_append (first second : List String) :
    unlines (first ++ second) = unlines first ++ unlines second := by
  rw [unlines, List.map_append, String.join_append]
  rfl

@[simp] theorem unlines_cons (line : String) (rest : List String) :
    unlines (line :: rest) = line ++ "\n" ++ unlines rest := by
  rw [unlines, List.map_cons, String.join_cons]
  rfl

theorem toList_unlines (lines : List String) :
    (unlines lines).toList = lines.flatMap fun line => line.toList ++ ['\n'] := by
  simp [unlines, List.flatMap_map]

/-- The lines of a text: what stands before each line feed, and what is left behind the last one
if that is not empty. -/
def lines (text : String) : List (List Char) :=
  let cut := pieces (· == '\n') text.toList
  if cut.getLast? = some [] then cut.dropLast else cut

end ApiClientGen.Text
