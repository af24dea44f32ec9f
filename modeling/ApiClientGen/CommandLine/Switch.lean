/-!
The switches of the command line and how they are spelled.
-/
namespace ApiClientGen.CommandLine

inductive Switch
  | help
  | url
  | splitInterfaces
  | groupClass
  | dest
  | cacheDir
  | noDocs
  | strictRefs
  | timeout
  deriving DecidableEq, Repr

def spellings : List (String × Switch) :=
  [("-h", .help), ("--help", .help), ("--url", .url), ("--splitInterfaces", .splitInterfaces),
    ("--groupClass", .groupClass), ("--dest", .dest), ("--cache-dir", .cacheDir),
    ("--no-docs", .noDocs), ("--strict-refs", .strictRefs), ("--timeout", .timeout)]

/-- The name of a switch in messages: its spellings with slashes between them. -/
def Switch.name (switch : Switch) : String :=
  String.intercalate "/" ((spellings.filter (·.2 = switch)).map Prod.fst)

def Switch.takesValue : Switch → Bool
  | .url | .groupClass | .dest | .cacheDir | .timeout => true
  | .help | .splitInterfaces | .noDocs | .strictRefs => false

end ApiClientGen.CommandLine
