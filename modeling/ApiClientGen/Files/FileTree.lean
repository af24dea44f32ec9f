import ApiClientGen.Files.FileError
import ApiClientGen.Files.Path
import ApiClientGen.OrderedMap

/-!
A tree of directories and files without links, as a value. A path is resolved step by step: each
part is looked up in a directory that is there, and two points lead to the directory above. Every
operation changes the node at one location at most.
-/
namespace ApiClientGen

abbrev FilePlace := List String

inductive Node
  | directory
  | file (content : ByteArray)

instance : DecidableEq Node
  | .directory, .directory => isTrue rfl
  | .directory, .file _ => isFalse nofun
  | .file _, .directory => isFalse nofun
  | .file content, .file other =>
    match ByteArray.instDecidableEq content other with
    | isTrue h => isTrue (congrArg Node.file h)
    | isFalse h => isFalse fun heq => h (Node.file.inj heq)

/-- A tree with a working directory. The root is always a directory and is not listed. -/
structure FileTree where
  here : FilePlace
  nodes : OrderedMap FilePlace Node

namespace FileTree

def fresh (here : FilePlace) : FileTree :=
  ⟨here, OrderedMap.ofList
    ((List.range here.length).map fun n => (here.take (n + 1), .directory))⟩

def node? (tree : FileTree) (place : FilePlace) : Option Node :=
  if place = [] then some .directory else tree.nodes.find? place

def put (tree : FileTree) (place : FilePlace) (node : Node) : FileTree :=
  { tree with nodes := tree.nodes.put place node }

def nameLimit : Nat := 255

def pathLimit : Nat := 4096

def step (place : FilePlace) (part : String) : FilePlace :=
  if part = ".." then place.dropLast else place ++ [part]

/-- The place that some parts lead to. Every place on the way has to be a directory; what stands
at the last one, if anything, is not asked. -/
def walk (tree : FileTree) (place : FilePlace) : List String → Except FileFault FilePlace
  | [] => .ok place
  | part :: rest =>
    match tree.node? place with
    | none => .error .notFound
    | some (.file _) => .error .notDirectory
    | some .directory =>
      if nameLimit < part.utf8ByteSize then .error .nameTooLong
      else walk tree (step place part) rest

def start (tree : FileTree) (path : Path) : FilePlace :=
  match path.anchor with
  | .here => tree.here
  | .root | .doubleRoot => []

/-- The place to which a path leads when nothing on the way is asked. -/
def placeOf (tree : FileTree) (path : Path) : FilePlace :=
  path.parts.foldl step (tree.start path)

def resolve (tree : FileTree) (path : Path) : Except FileError FilePlace :=
  if '\x00' ∈ path.text.toList then .error .embeddedNul
  else if pathLimit ≤ path.text.utf8ByteSize then .error (.fault .nameTooLong path.text)
  else (tree.walk (tree.start path) path.parts).mapError (.fault · path.text)

/-- What stands at a path. That something on the way is missing or no directory means that nothing
stands there. -/
def look (tree : FileTree) (path : Path) : Except FileError (Option Node) :=
  match tree.resolve path with
  | .ok place => .ok (tree.node? place)
  | .error (.fault .nameTooLong path) => .error (.fault .nameTooLong path)
  | .error _ => .ok none

def isDirectory (tree : FileTree) (path : Path) : Except FileError Bool :=
  (tree.look path).map fun
    | some .directory => true
    | _ => false

def isFile (tree : FileTree) (path : Path) : Except FileError Bool :=
  (tree.look path).map fun
    | some (.file _) => true
    | _ => false

def read (tree : FileTree) (path : Path) : Except FileError ByteArray := do
  match tree.node? (← tree.resolve path) with
  | some (.file content) => .ok content
  | some .directory => .error (.fault .isDirectory path.text)
  | none => .error (.fault .notFound path.text)

def write (tree : FileTree) (path : Path) (content : ByteArray) : Except FileError FileTree := do
  let place ← tree.resolve path
  match tree.node? place with
  | some .directory => .error (.fault .isDirectory path.text)
  | _ => .ok (tree.put place (.file content))

def makeDirectory (tree : FileTree) (path : Path) : Except FileError FileTree := do
  let place ← tree.resolve path
  match tree.node? place with
  | some _ => .error (.fault .alreadyThere path.text)
  | none => .ok (tree.put place .directory)

/-- The outcome of an operation that may change the tree before it fails. -/
abbrev Change := Except FileError Unit × FileTree

/-- What becomes of a directory that could not be made: nothing is wrong when it is there. -/
def accept (tree : FileTree) (path : Path) (error : FileError) : Change :=
  match error with
  | .embeddedNul => (.error .embeddedNul, tree)
  | .fault .notFound path => (.error (.fault .notFound path), tree)
  | error =>
    match tree.isDirectory path with
    | .ok true => (.ok (), tree)
    | .ok false => (.error error, tree)
    | .error error => (.error error, tree)

def ensureDirectory (tree : FileTree) (path : Path) : Change :=
  match tree.makeDirectory path with
  | .ok changed => (.ok (), changed)
  | .error error => accept tree path error

/-- Makes a directory and, as far as they are missing, at most `depth` directories above it. -/
def ensureUpTo : (depth : Nat) → (tree : FileTree) → Path → Change
  | 0, tree, path => tree.ensureDirectory path
  | depth + 1, tree, path =>
    match tree.makeDirectory path with
    | .error (.fault .notFound _) =>
      match ensureUpTo depth tree path.parent with
      | (.ok (), changed) => changed.ensureDirectory path
      | failed => failed
    | _ => tree.ensureDirectory path

def ensureDirectories (tree : FileTree) (path : Path) : Change :=
  ensureUpTo path.parts.length tree path

def remove (tree : FileTree) (path : Path) : Except FileError FileTree := do
  let place ← tree.resolve path
  match tree.node? place with
  | none => .error (.fault .notFound path.text)
  | some _ => .ok { tree with nodes := tree.nodes.removeIf place.isPrefixOf }

/-- Everything below the working directory, with the names from there on, in increasing order of
their text. -/
def listing (tree : FileTree) : List (String × Node) :=
  let below := tree.nodes.entries.filterMap fun entry =>
    if tree.here.isPrefixOf entry.1 ∧ tree.here ≠ entry.1 then
      some (String.intercalate "/" (entry.1.drop tree.here.length), entry.2)
    else none
  below.mergeSort fun a b => a.1 ≤ b.1

@[simp] theorem node?_put_self (tree : FileTree) {place : FilePlace} (node : Node)
    (h : place ≠ []) :
    (tree.put place node).node? place = some node := by
  simp [node?, put, h]

theorem node?_put_of_ne (tree : FileTree) {place other : FilePlace} (node : Node)
    (h : other ≠ place) :
    (tree.put place node).node? other = tree.node? other := by
  simp [node?, put, OrderedMap.find?_put_of_ne _ node h]

end FileTree

end ApiClientGen
