import ApiClientGen.World

/-!
Documents kept on disk, one file for each cache key. The key of a URL is the URL without its
separators, so it is a single file name or empty. Entries do not expire.
-/
namespace ApiClientGen.Cache

def isSeparator (c : Char) : Bool :=
  [':', '/', '.', '-', '?', '=', '\x7b', '\x7d'].contains c

def key (url : String) : String :=
  String.ofList (url.toList.filter fun c => !isSeparator c)

def pathFor (directory : Path) (url : String) : Path :=
  directory.child (key url)

def read (directory : Path) (url : String) : Run (Option ByteArray) := do
  let path := pathFor directory url
  if ← Run.look (·.isFile path) then
    return some (← Run.look (·.read path))
  else return none

/-- Keeps the document of a URL; the answer is where. -/
def write (directory : Path) (url : String) (body : ByteArray) : Run Path := do
  Run.ensureDirectories directory
  let path := pathFor directory url
  Run.writeFile path body
  return path

/-- A key holds no separator. -/
theorem not_isSeparator_of_mem_key (url : String) (c : Char) (h : c ∈ (key url).toList) :
    isSeparator c = false := by
  simp only [key, String.toList_ofList, List.mem_filter, Bool.not_eq_eq_eq_not,
    Bool.not_true] at h
  exact h.2

end ApiClientGen.Cache
