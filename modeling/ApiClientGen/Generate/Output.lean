import ApiClientGen.Declaration.ClientClass
import ApiClientGen.Generate.BaseClass
import ApiClientGen.Generate.Settings
import ApiClientGen.World

/-!
Writing the files of a run. A file is written with the directories above it and replaces the one
that is there.
-/
namespace ApiClientGen.Generate

open Declaration

def writeText (path : Path) (text : String) : Run Path := do
  Run.ensureDirectories path.parent
  Run.writeFile path text.toUTF8
  return path

def writeBase (dest : Path) : Run Path := do
  Run.ensureDirectories dest
  let path := dest.child baseFile
  Run.writeFile path baseText.toUTF8
  return path

abbrev Draft := Path × String

def interfacesDir (settings : Settings) : Path := settings.dest.child "interfaces"

def classDraft (settings : Settings) (name : String) (resource : Resource) : Draft :=
  (settings.dest.child (name ++ ".ts"),
    classText settings.splitInterfaces settings.docs name resource)

def interfaceDraft (settings : Settings) (model : Model) : Draft :=
  ((interfacesDir settings).child (model.interfaceName ++ ".ts"),
    interfaceText settings.splitInterfaces model)

def optionsDraft (settings : Settings) (operation : Operation) : Draft :=
  ((interfacesDir settings).child (operation.optionsName ++ ".ts"),
    optionsText settings.splitInterfaces operation)

/-- The files of the interfaces of a resource: its models, then the options of its operations. -/
def interfaceDrafts (settings : Settings) (resource : Resource) : List Draft :=
  resource.models.values.map (interfaceDraft settings) ++
    resource.operations.map (optionsDraft settings)

@[simp] theorem classDraft_fst (settings : Settings) (name : String) (resource : Resource) :
    (classDraft settings name resource).1 = settings.dest.child (name ++ ".ts") := by
  rw [classDraft]

@[simp] theorem interfaceDraft_fst (settings : Settings) (model : Model) :
    (interfaceDraft settings model).1 =
      (interfacesDir settings).child (model.interfaceName ++ ".ts") := by
  rw [interfaceDraft]

@[simp] theorem optionsDraft_fst (settings : Settings) (operation : Operation) :
    (optionsDraft settings operation).1 =
      (interfacesDir settings).child (operation.optionsName ++ ".ts") := by
  rw [optionsDraft]

def writeDrafts : List Draft → Run (List Path)
  | [] => return []
  | draft :: rest => do
    let first ← writeText draft.1 draft.2
    let others ← writeDrafts rest
    return first :: others

end ApiClientGen.Generate
