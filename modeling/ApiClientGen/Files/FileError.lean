import ApiClientGen.Text.Quoted

/-!
The ways in which an operation on files fails.
-/
namespace ApiClientGen

inductive FileFault
  | notFound
  | alreadyThere
  | notDirectory
  | isDirectory
  | nameTooLong
  deriving DecidableEq, Repr

def FileFault.code : FileFault → Nat
  | .notFound => 2
  | .alreadyThere => 17
  | .notDirectory => 20
  | .isDirectory => 21
  | .nameTooLong => 36

def FileFault.message : FileFault → String
  | .notFound => "No such file or directory"
  | .alreadyThere => "File exists"
  | .notDirectory => "Not a directory"
  | .isDirectory => "Is a directory"
  | .nameTooLong => "File name too long"

/-- A refused operation: a fault at a path, or a path that no system call can name. -/
inductive FileError
  | fault (cause : FileFault) (path : String)
  | embeddedNul
  deriving DecidableEq, Repr

def FileError.message : FileError → String
  | .fault cause path => s!"[Errno {cause.code}] {cause.message}: {Text.quoted path}"
  | .embeddedNul => "embedded null byte"

end ApiClientGen
