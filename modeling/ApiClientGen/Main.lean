import ApiClientGen.CommandLine.Program

/-!
The program on a real disk. The documents in the cache are read before the run, and the files that
the run wrote are put on the disk after it. There is no network, so that every document has to be
in the cache.
-/
namespace ApiClientGen.Main

def placeText (place : FilePlace) : String := "/" ++ String.intercalate "/" place

def putFile (tree : FileTree) (place : FilePlace) (content : ByteArray) : FileTree :=
  let above := (List.range (place.length - 1)).foldl
    (fun tree n => tree.put (place.take (n + 1)) .directory) tree
  above.put place (.file content)

def entryUrls (url : String) (body : ByteArray) : List String :=
  match Json.ofBytes body with
  | .error _ => []
  | .ok value =>
    match Schema.readListing value with
    | .good listing => listing.apis.map (Fetch.entryUrl url listing)
    | .bad _ => []

def readKept (tree : FileTree) (cache : Path) (url : String) :
    IO (FileTree × Option ByteArray) := do
  let place := tree.placeOf (Cache.pathFor cache url)
  match ← (IO.FS.readBinFile (placeText place)).toBaseIO with
  | .ok body => return (putFile tree place body, some body)
  | .error _ => return (tree, none)

/-- The tree with the kept documents that a run may ask for. -/
def readCache (tree : FileTree) (settings : Settings) : IO FileTree := do
  let (tree, body) ← readKept tree settings.cacheDir settings.url
  let urls := (body.map (entryUrls settings.url)).getD []
  urls.foldlM (fun tree url => return (← readKept tree settings.cacheDir url).1) tree

/-- Puts on the disk what stands in the second tree and not in the first. -/
def writeChanges (before after : FileTree) : IO Unit := do
  for (place, node) in after.nodes.entries do
    if before.node? place ≠ some node then
      match node with
      | .directory => IO.FS.createDirAll (placeText place)
      | .file content => IO.FS.writeBinFile (placeText place) content

def noServer : Web.Server := fun _ _ => .failed .connectError "no network"

end ApiClientGen.Main

open ApiClientGen ApiClientGen.Main in
def main (args : List String) : IO UInt32 := do
  let here := (Path.ofString (toString (← IO.currentDir))).parts
  let fresh := FileTree.fresh here
  let files ← match CommandLine.parse args with
    | .ok settings => readCache fresh settings
    | .error _ => pure fresh
  let (outcome, world) :=
    (CommandLine.program args).run.run { files := files, server := noServer }
  writeChanges files world.files
  (← IO.getStdout).putStr world.stdout
  (← IO.getStderr).putStr world.stderr
  match outcome with
  | .ok (.stopped code) => return UInt32.ofNat code
  | .ok (.ran status) => return UInt32.ofNat status
  | .error failure =>
    (← IO.getStderr).putStrLn failure.message
    return 1
