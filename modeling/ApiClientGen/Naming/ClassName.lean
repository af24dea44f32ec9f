import ApiClientGen.Naming.Identifier
import ApiClientGen.Naming.TitleCase
import ApiClientGen.Schema.Record

/-!
The name of a client class, from the path of its resource. Each segment of the path gives a part
of the name on its own.
-/
namespace ApiClientGen.Naming

open Text

def segments (path : String) : List (List Char) :=
  pieces (· == '/') path.toList

/-- Whether a segment gives a part of the name: it is neither empty, nor the version of the api,
nor a placeholder. -/
def isNaming (version : Option String) (segment : List Char) : Bool :=
  !segment.isEmpty && !(version.map String.toList == some segment) &&
    !(segment.head? == some '\x7b')

def segmentName (segment : List Char) : List Char :=
  (titleChars segment).filter isIdentifierChar

def pathName (path : String) (version : Option String) : List Char :=
  ((segments path).filter (isNaming version)).flatMap segmentName

/-- What a class is called whose path gives no name. -/
def rootName : String := "Root"

def className (resource : Resource) : String :=
  match pathName (resource.resourcePath.getD "") resource.apiVersion with
  | [] => rootName
  | name => String.ofList name

/-- What a segment gives to the name is made of identifier characters. -/
theorem isIdentifierChar_of_mem_segmentName {segment : List Char} {c : Char}
    (h : c ∈ segmentName segment) : isIdentifierChar c = true := by
  rw [segmentName, List.mem_filter] at h
  exact h.2

theorem isIdentifierChar_of_mem_pathName {path : String} {version : Option String} {c : Char}
    (h : c ∈ pathName path version) : isIdentifierChar c = true := by
  rw [pathName, List.mem_flatMap] at h
  obtain ⟨segment, -, hc⟩ := h
  exact isIdentifierChar_of_mem_segmentName hc

theorem className_ne_empty (resource : Resource) : className resource ≠ "" := by
  unfold className
  split
  · decide
  · rename_i hname
    intro heq
    apply hname
    rw [← String.toList_eq_nil_iff, String.toList_ofList] at heq
    exact heq

theorem isIdentifierChar_of_mem_className {resource : Resource} {c : Char}
    (h : c ∈ (className resource).toList) : isIdentifierChar c = true := by
  unfold className at h
  split at h
  · exact List.all_eq_true.mp (by decide) c h
  · rw [String.toList_ofList] at h
    exact isIdentifierChar_of_mem_pathName h

end ApiClientGen.Naming
