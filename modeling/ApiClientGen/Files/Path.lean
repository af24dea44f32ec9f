import ApiClientGen.Text.Blank

/-!
Paths in normal form: an anchor and the parts behind it. Repeated slashes and parts that are a
single point vanish; two points stay, as they depend on the files. Reading the text of a path
gives the path back.
-/
namespace ApiClientGen

/-- Where a path starts: at the working directory, at the root, or at the root written with
exactly two slashes, which is kept apart. -/
inductive Anchor
  | here
  | root
  | doubleRoot
  deriving DecidableEq, Repr

structure Path where
  anchor : Anchor := .here
  parts : List String := []
  deriving DecidableEq, Repr, Inhabited

namespace Path

def isPart (piece : List Char) : Bool := !piece.isEmpty && piece != ['.']

def partsOf (text : List Char) : List String :=
  ((Text.pieces (· == '/') text).filter isPart).map String.ofList

def anchorOf (text : List Char) : Anchor :=
  match (text.takeWhile (· == '/')).length with
  | 0 => .here
  | 2 => .doubleRoot
  | _ => .root

def ofString (text : String) : Path :=
  ⟨anchorOf text.toList, partsOf text.toList⟩

def text (path : Path) : String :=
  match path.anchor with
  | .here => if path.parts.isEmpty then "." else String.intercalate "/" path.parts
  | .root => "/" ++ String.intercalate "/" path.parts
  | .doubleRoot => "//" ++ String.intercalate "/" path.parts

instance : ToString Path := ⟨text⟩

/-- A path behind another one; a path with an anchor of its own stands alone. -/
def join (path further : Path) : Path :=
  if further.anchor = .here then { path with parts := path.parts ++ further.parts } else further

def child (path : Path) (text : String) : Path :=
  path.join (ofString text)

def parent (path : Path) : Path :=
  { path with parts := path.parts.dropLast }

@[simp] theorem parent_anchor (path : Path) : path.parent.anchor = path.anchor := rfl

@[simp] theorem parent_parts (path : Path) : path.parent.parts = path.parts.dropLast := rfl

theorem takeWhile_slash_eq_nil {text : List Char} (h : text.head? ≠ some '/') :
    text.takeWhile (· == '/') = [] := by
  cases text with
  | nil => rfl
  | cons c rest =>
    have hc : c ≠ '/' := fun heq => h (heq ▸ rfl)
    rw [List.takeWhile_cons, beq_eq_false_iff_ne.mpr hc, if_neg Bool.false_ne_true]

/-- A text that does not begin with a slash is seen from the directory before it. -/
theorem anchorOf_of_head?_ne {text : List Char} (h : text.head? ≠ some '/') :
    anchorOf text = .here := by
  rw [anchorOf, takeWhile_slash_eq_nil h]
  rfl

/-- A text without a slash that is neither empty nor a single point is a path of one part. -/
theorem ofString_of_isPart {text : String} (hslash : '/' ∉ text.toList)
    (hpart : isPart text.toList = true) : ofString text = ⟨.here, [text]⟩ := by
  have hanchor : anchorOf text.toList = .here := by
    apply anchorOf_of_head?_ne
    intro hhead
    exact hslash (List.mem_of_mem_head? hhead)
  rw [ofString, hanchor, partsOf, Text.pieces_of_not_cut _ (Text.not_cut_of_not_mem hslash),
    List.filter_cons, if_pos hpart]
  simp

theorem child_of_isPart (path : Path) {text : String} (hslash : '/' ∉ text.toList)
    (hpart : isPart text.toList = true) :
    path.child text = { path with parts := path.parts ++ [text] } := by
  rw [child, ofString_of_isPart hslash hpart, join, if_pos rfl]

/-- What follows the last slash of a text goes to its last part. -/
theorem exists_partsOf_append (text : List Char) {more : List Char} (hslash : '/' ∉ more)
    (hmore : 2 ≤ more.length) :
    ∃ front last, partsOf (text ++ more) = front ++ [String.ofList (last ++ more)] := by
  obtain ⟨front, last, -, happend⟩ :=
    Text.exists_pieces_append (· == '/') text (Text.not_cut_of_not_mem hslash)
  have hlong : 2 ≤ (last ++ more).length := by
    rw [List.length_append]
    omega
  have hpart : isPart (last ++ more) = true := by
    match hlast : last ++ more with
    | [] | [_] => simp [hlast] at hlong
    | first :: second :: rest => simp [isPart]
  refine ⟨(front.filter isPart).map String.ofList, last, ?_⟩
  rw [partsOf, happend, List.filter_append, List.map_append, List.filter_cons, if_pos hpart]
  rfl

end Path

end ApiClientGen
