import ApiClientGen.Declaration.ClientClass

/-!
What the modes of output change. An interface with a file of its own has imports in front and is
else as it stands inside the file of a class. The file of a class ends with the same text, whether
its interfaces stand in front of it or are imported. Documentation puts a block in front of each
method that has something to say, and nothing else.
-/
namespace ApiClientGen.OutputModes

open Declaration Text

/-- Imports with an empty line behind them; nothing when there are none. -/
def importBlock (imports : List String) : String :=
  if imports = [] then "" else unlines imports ++ "\n"

def siblingLine (name : String) : String := importLine name ("./" ++ name)

def interfaceLine (name : String) : String := importLine name ("./interfaces/" ++ name)

def inRow (texts : List String) : String := String.join (texts.map ("\n" ++ ·))

/-- What stands in front of a class whose file holds its interfaces: the imports of the base class
and the declarations in order. -/
def inlineFront (resource : Resource) : String :=
  importLine "Api, IOperationOptions" "./Api" ++ "\n" ++
    inRow (resource.models.values.map (interfaceText false) ++
      resource.operations.map (optionsText false))

def importedFront (resource : Resource) : String :=
  unlines (importLine "Api" "./Api" :: (classImports resource).map interfaceLine)

def classHead (name : String) (resource : Resource) : String :=
  unlines (("" :: commentLines "" (descriptionLine resource.description)) ++
    ["export class " ++ name ++ " extends Api \x7b",
      "  constructor(token: string) \x7b",
      "    super(\x7b url: '" ++ resource.basePath ++ "', token \x7d);",
      "  \x7d"])

def classPart (docs : Bool) (name : String) (resource : Resource) : String :=
  classHead name resource ++
    inRow (resource.targets.map fun target => methodText docs target.1 target.2) ++ "\x7d\n"

/-- A line that opens a comment, lines that begin with a star, and a line that closes it. -/
def IsDocBlock (text : String) : Prop :=
  ∃ inside : List String, (∀ line ∈ inside, "   *".toList <+: line.toList) ∧
    text = unlines ("  /**" :: inside ++ ["   */"])

section Rows

variable {α : Type} {first second : List String}

theorem inRow_append (first second : List String) :
    inRow (first ++ second) = inRow first ++ inRow second := by
  rw [inRow, List.map_append, String.join_append]
  rfl

/-- Blocks of lines with an empty line in front of each are texts in a row. -/
theorem unlines_spaced (items : List α) (lines : α → List String) :
    unlines (items.flatMap fun item => spaced (lines item)) =
      inRow (items.map fun item => unlines (lines item)) := by
  induction items with
  | nil => rfl
  | cons item rest ih =>
    rw [List.flatMap_cons, unlines_append, ih, spaced, unlines_cons, List.map_cons, inRow, inRow,
      List.map_cons, String.join_cons, String.empty_append]

end Rows

section Declarations

variable (model : Model) (operation : Operation)

/-- The file of an interface is the declaration behind its imports. -/
theorem interfaceText_split :
    interfaceText true model =
      importBlock ((modelImports model).map siblingLine) ++ interfaceText false model := by
  have hinline : (interfaceOf false model).header = [] := rfl
  have hheader : unlines (interfaceOf true model).header =
      importBlock ((modelImports model).map siblingLine) := by
    rw [Interface.header, interfaceOf, if_pos rfl]
    cases modelImports model with
    | nil => rfl
    | cons name rest => exact unlines_append ((name :: rest).map siblingLine) [""]
  rw [interfaceText, Interface.lines, unlines_append, hheader, interfaceText, Interface.lines,
    hinline]
  rfl

/-- The file of options is the declaration behind its imports. -/
theorem optionsText_split :
    optionsText true operation =
      importBlock (importLine "IOperationOptions" "../Api" ::
        (optionsImports operation).map siblingLine) ++ optionsText false operation := by
  have hinline : (optionsOf false operation).header = [] := rfl
  have hheader : unlines (optionsOf true operation).header =
      importBlock (importLine "IOperationOptions" "../Api" ::
        (optionsImports operation).map siblingLine) := by
    rw [Options.header, importBlock, if_neg (List.cons_ne_nil _ _)]
    exact unlines_append (_ :: (optionsImports operation).map siblingLine) [""]
  rw [optionsText, Options.lines, unlines_append, hheader, optionsText, Options.lines, hinline]
  rfl

end Declarations

section Class

variable (docs : Bool) (name : String) (resource : Resource)

theorem unlines_body (split : Bool) :
    unlines (classOf split docs name resource).body = classPart docs name resource := by
  have hmethods : unlines ((classOf split docs name resource).methods.flatMap fun method =>
      spaced method.lines) =
        inRow (resource.targets.map fun target => methodText docs target.1 target.2) := by
    rw [unlines_spaced, classOf, List.map_map]
    rfl
  rw [ClientClass.body, unlines_append, unlines_append, hmethods]
  rfl

/-- A class file with its interfaces: these first, then the part that both modes share. -/
theorem classText_inline :
    classText false docs name resource =
      inlineFront resource ++ classPart docs name resource := by
  have hfront : unlines (classOf false docs name resource).surroundings.lines =
      inlineFront resource := by
    rw [classOf, if_neg Bool.false_ne_true, Surroundings.lines, List.cons_append, unlines_cons,
      unlines_append, unlines_spaced, unlines_spaced, List.map_map, List.map_map, ← inRow_append]
    rfl
  rw [classText, ClientClass.lines, unlines_append, hfront, unlines_body]

/-- A class file without its interfaces: their imports first, then the part that both modes
share. -/
theorem classText_imported :
    classText true docs name resource =
      importedFront resource ++ classPart docs name resource := by
  rw [classText, ClientClass.lines, unlines_append, unlines_body]
  rfl

end Class

section Documentation

theorem prefix_starred (line : String) : "   *".toList <+: (starred line).toList := by
  rw [starred]
  split
  · exact List.prefix_refl _
  · rw [String.toList_append]
    exact ⟨' ' :: line.toList, rfl⟩

def docText (operation : Operation) : String :=
  unlines (methodOf true "" operation).docBlock

/-- A comment block is empty or stands between its first and its last line. -/
theorem docText_cases (operation : Operation) :
    docText operation = "" ∨ IsDocBlock (docText operation) := by
  rw [docText, Method.docBlock]
  split
  · exact .inl rfl
  · refine .inr ⟨(methodOf true "" operation).doc.map starred, fun line hline => ?_, rfl⟩
    obtain ⟨said, -, rfl⟩ := List.mem_map.mp hline
    exact prefix_starred said

/-- Documentation puts the block in front of a method and changes nothing else. -/
theorem methodText_documented (docs : Bool) (path : String) (operation : Operation) :
    methodText docs path operation =
      (if docs then docText operation else "") ++ methodText false path operation := by
  cases docs with
  | false => rfl
  | true =>
    rw [methodText, Method.lines, unlines_append]
    rfl

end Documentation

/-- The modes change only what stands around the declarations: interfaces and options with files
of their own have imports in front, the text of a class is the same behind the declarations and
behind the imports, and with documentation there is a block in front of the methods, and nothing
else. -/
theorem modes_change_surroundings_only :
    (∀ model, interfaceText true model =
      importBlock ((modelImports model).map siblingLine) ++ interfaceText false model) ∧
    (∀ operation, optionsText true operation =
      importBlock (importLine "IOperationOptions" "../Api" ::
        (optionsImports operation).map siblingLine) ++ optionsText false operation) ∧
    (∀ docs name resource,
      classText false docs name resource = inlineFront resource ++ classPart docs name resource ∧
      classText true docs name resource =
        importedFront resource ++ classPart docs name resource) ∧
    ∃ block : Operation → String,
    (∀ operation, block operation = "" ∨ IsDocBlock (block operation)) ∧
      (∀ path operation,
        methodText true path operation = block operation ++ methodText false path operation) ∧
      ∀ split name resource, ∃ front, ∀ docs, classText split docs name resource =
        front ++ inRow (resource.targets.map fun target =>
          (if docs then block target.2 else "") ++ methodText false target.1 target.2) ++
            "\x7d\n" := by
  refine ⟨interfaceText_split, optionsText_split, fun docs name resource =>
    ⟨classText_inline docs name resource, classText_imported docs name resource⟩,
    docText, docText_cases, methodText_documented true, fun split name resource => ?_⟩
  have hpart : ∀ docs, classPart docs name resource = classHead name resource ++
      inRow (resource.targets.map fun target => (if docs then docText target.2 else "") ++
        methodText false target.1 target.2) ++ "\x7d\n" := by
    intro docs
    rw [classPart]
    congr 3
    exact List.map_congr_left fun target _ => methodText_documented docs target.1 target.2
  cases split with
  | false =>
    refine ⟨inlineFront resource ++ classHead name resource, fun docs => ?_⟩
    rw [classText_inline, hpart, String.append_assoc, String.append_assoc, String.append_assoc]
  | true =>
    refine ⟨importedFront resource ++ classHead name resource, fun docs => ?_⟩
    rw [classText_imported, hpart, String.append_assoc, String.append_assoc, String.append_assoc]

end ApiClientGen.OutputModes
