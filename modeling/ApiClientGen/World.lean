import ApiClientGen.Failure
import ApiClientGen.Files.FileTree

/-!
What a run sees and changes: files, a server, and what it printed. A run that fails leaves behind
what it did before.
-/
namespace ApiClientGen

/-- The surroundings of a run. Requests are listed the latest first. -/
structure World where
  files : FileTree
  server : Web.Server
  requests : List String := []
  stdout : String := ""
  stderr : String := ""

abbrev Run (α : Type) := ExceptT Failure (StateM World) α

namespace Run

variable {α : Type}

def printLine (line : String) : Run Unit :=
  modify fun world => { world with stdout := world.stdout ++ line ++ "\n" }

def warn (line : String) : Run Unit :=
  modify fun world => { world with stderr := world.stderr ++ line ++ "\n" }

def ofExcept {ε : Type} (failure : ε → Failure) : Except ε α → Run α
  | .ok value => pure value
  | .error error => throw (failure error)

def look (see : FileTree → Except FileError α) : Run α := do
  ofExcept .file (see (← get).files)

/-- A change of the files that is made as a whole or not at all. -/
def changeFiles (change : FileTree → Except FileError FileTree) : Run Unit := do
  let changed ← look change
  modify fun world => { world with files := changed }

def ensureDirectories (path : Path) : Run Unit := do
  let (outcome, changed) := (← get).files.ensureDirectories path
  modify fun world => { world with files := changed }
  ofExcept .file outcome

def writeFile (path : Path) (content : ByteArray) : Run Unit :=
  changeFiles (·.write path content)

def ofReply : Web.Reply → Run Web.Response
  | .response response => pure response
  | .failed fault message => throw (.transport fault message)

def request (url : String) : Run Web.Response := do
  let world ← get
  set { world with requests := url :: world.requests }
  ofReply (world.server world.requests url)

end Run

end ApiClientGen
