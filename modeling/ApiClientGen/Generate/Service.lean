import ApiClientGen.Fetch
import ApiClientGen.Generate.Output
import ApiClientGen.Naming.ClassName
import ApiClientGen.Schema.Merge

/-!
A whole run: the base class, then resource by resource what it gives, and at the end the class of
all resources if one is asked for. A resource is checked before its class is written.
-/
namespace ApiClientGen.Generate

/-- Looks for references that dangle: they fail a strict check and are reported by any other. -/
def checkReferences (name : String) (resource : Resource) (strict : Bool) :
    Run (List String) := do
  let missing := resource.danglingReferences
  if missing.isEmpty then return []
  else if strict then throw (.dangling name missing)
  else do
    Run.warn ("warning: " ++ Failure.danglingText name missing)
    return missing

def writeClass (settings : Settings) (name : String) (resource : Resource) : Run (List Path) := do
  let _ ← checkReferences name resource settings.strictRefs
  writeDrafts [classDraft settings name resource]

def writeOwnClass (settings : Settings) (resource : Resource) : Run (List Path) :=
  if settings.groupClass = "" then writeClass settings (Naming.className resource) resource
  else return []

def writeInterfaces (settings : Settings) (resource : Resource) : Run (List Path) :=
  if settings.splitInterfaces then writeDrafts (interfaceDrafts settings resource) else return []

def writeResource (settings : Settings) (resource : Resource) : Run (List Path) := do
  let ofClass ← writeOwnClass settings resource
  let ofInterfaces ← writeInterfaces settings resource
  return ofClass ++ ofInterfaces

/-- Fetches some resources and writes what each gives before the next is fetched. -/
def writeResources (settings : Settings) (cache : Path) (client : Web.Client)
    (listing : Listing) : List ListingEntry → Run (List Path × List Resource)
  | [] => return ([], [])
  | entry :: rest => do
    let resource ← Fetch.resource cache client settings.url listing entry
    let written ← writeResource settings resource
    let (others, resources) ← writeResources settings cache client listing rest
    return (written ++ others, resource :: resources)

def writeGroup (settings : Settings) (resources : List Resource) : Run (List Path) :=
  if settings.groupClass = "" then return []
  else match Resource.merge? resources with
    | none => throw .nothingToMerge
    | some merged => writeClass settings settings.groupClass merged

def prepare (settings : Settings) : Run Path := do
  Run.ensureDirectories settings.dest
  if settings.splitInterfaces then Run.ensureDirectories (interfacesDir settings)
  writeBase settings.dest

/-- Runs with the documents of a cache directory; the answer lists the files written, in order. -/
def runWith (settings : Settings) (cache : Path) (client : Web.Client) : Run (List Path) := do
  let base ← prepare settings
  let listing ← Fetch.listing cache client settings.url
  let (written, resources) ← writeResources settings cache client listing listing.apis
  let grouped ← writeGroup settings resources
  let all := base :: (written ++ grouped)
  Run.printLine s!"Generated {all.length} files in {settings.dest}"
  return all

def run (settings : Settings) (client : Web.Client) : Run (List Path) :=
  runWith settings settings.cacheDir client

end ApiClientGen.Generate
