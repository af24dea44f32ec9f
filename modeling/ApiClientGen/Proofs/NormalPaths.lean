import ApiClientGen.Files.Path
import ApiClientGen.Proofs.TextLines

/-!
Paths in normal form. The paths that texts spell are those whose parts are neither empty nor a
single point and hold no slash; they are read back from their own text, so that what was put into
normal form stays as it is.
-/
namespace ApiClientGen.Path

open Text TextLines

variable {path : Path} {parts : List String} {text : List Char}

/-- Each part of a path can stand between two slashes of a text and be read from there. -/
def IsNormal (path : Path) : Prop :=
  ∀ part ∈ path.parts, isPart part.toList = true ∧ '/' ∉ part.toList

theorem ofString_isNormal (text : String) : (ofString text).IsNormal := by
  intro part hpart
  obtain ⟨piece, hpiece, rfl⟩ := List.mem_map.mp hpart
  obtain ⟨hcut, hisPart⟩ := List.mem_filter.mp hpiece
  rw [String.toList_ofList]
  refine ⟨hisPart, fun hslash => ?_⟩
  exact absurd (not_cut_of_mem_pieces _ _ piece hcut '/' hslash) (by decide)

section Parts

/-- A slash in front adds no part. -/
theorem partsOf_slash (text : List Char) : partsOf ('/' :: text) = partsOf text := by
  have hpieces : pieces (· == '/') ('/' :: text) = [] :: pieces (· == '/') text :=
    pieces_append_cut (· == '/') [] rfl text
  rw [partsOf, hpieces]
  rfl

/-- The parts between the slashes of a text are its parts. -/
theorem partsOf_intercalate (h : ∀ part ∈ parts, isPart part.toList = true ∧ '/' ∉ part.toList) :
    partsOf (List.intercalate ['/'] (parts.map String.toList)) = parts := by
  cases parts with
  | nil => rfl
  | cons part rest =>
    have hcuts : ∀ piece ∈ (part :: rest).map String.toList, ∀ c ∈ piece, (c == '/') = false := by
      intro piece hpiece
      obtain ⟨text, htext, rfl⟩ := List.mem_map.mp hpiece
      exact not_cut_of_not_mem (h text htext).2
    have hpieces : pieces (· == '/') (List.intercalate ['/'] ((part :: rest).map String.toList)) =
        (part :: rest).map String.toList :=
      pieces_intercalate (by rfl) (List.cons_ne_nil _ _) hcuts
    have hparts : ((part :: rest).map String.toList).filter isPart =
        (part :: rest).map String.toList := by
      refine List.filter_eq_self.mpr fun piece hpiece => ?_
      obtain ⟨text, htext, rfl⟩ := List.mem_map.mp hpiece
      exact (h text htext).1
    have hback : String.ofList ∘ String.toList = id := funext fun text => String.ofList_toList
    rw [partsOf, hpieces, hparts, List.map_map, hback, List.map_id]

/-- Parts begin with no slash, as the first of them is not empty and holds none. -/
theorem head?_intercalate_ne_slash
    (h : ∀ part ∈ parts, isPart part.toList = true ∧ '/' ∉ part.toList) :
    (List.intercalate ['/'] (parts.map String.toList)).head? ≠ some '/' := by
  cases parts with
  | nil => exact nofun
  | cons part rest =>
    obtain ⟨hpart, hslash⟩ := h part (List.mem_cons_self ..)
    have hne : part.toList ≠ [] := by
      intro hnil
      rw [hnil] at hpart
      cases hpart
    have hhead : (List.intercalate ['/'] ((part :: rest).map String.toList)).head? =
        part.toList.head? := by
      cases rest with
      | nil => rw [List.map_singleton, List.intercalate_singleton]
      | cons next rest =>
        rw [List.map_cons, List.map_cons, List.intercalate_cons_cons, List.append_assoc,
          List.head?_append_of_ne_nil _ hne]
    rw [hhead]
    exact fun hfirst => hslash (List.mem_of_mem_head? hfirst)

end Parts

section Anchors

theorem anchorOf_slash (h : text.head? ≠ some '/') : anchorOf ('/' :: text) = .root := by
  have hslashes : ('/' :: text).takeWhile (· == '/') = '/' :: text.takeWhile (· == '/') := rfl
  rw [anchorOf, hslashes, takeWhile_slash_eq_nil h]
  rfl

theorem anchorOf_slash_slash (h : text.head? ≠ some '/') :
    anchorOf ('/' :: '/' :: text) = .doubleRoot := by
  have hslashes : ('/' :: '/' :: text).takeWhile (· == '/') =
      '/' :: '/' :: text.takeWhile (· == '/') := rfl
  rw [anchorOf, hslashes, takeWhile_slash_eq_nil h]
  rfl

end Anchors

/-- A path in normal form is read back from its text. The working directory, which has no part to
show, is read back from the point that stands for it. -/
theorem ofString_text (h : path.IsNormal) : ofString path.text = path := by
  obtain ⟨anchor, parts⟩ := path
  have hparts := partsOf_intercalate h
  have hhead := head?_intercalate_ne_slash h
  have hshown : (String.intercalate "/" parts).toList =
      List.intercalate ['/'] (parts.map String.toList) := String.toList_intercalate
  cases anchor with
  | here =>
    cases parts with
    | nil => rfl
    | cons part rest =>
      have htext : text ⟨.here, part :: rest⟩ = String.intercalate "/" (part :: rest) := rfl
      rw [ofString, htext, hshown, hparts, anchorOf_of_head?_ne hhead]
  | root =>
    have htext : (text ⟨.root, parts⟩).toList =
        '/' :: List.intercalate ['/'] (parts.map String.toList) := by
      rw [← hshown, text, String.toList_append]
      rfl
    rw [ofString, htext, partsOf_slash, hparts, anchorOf_slash hhead]
  | doubleRoot =>
    have htext : (text ⟨.doubleRoot, parts⟩).toList =
        '/' :: '/' :: List.intercalate ['/'] (parts.map String.toList) := by
      rw [← hshown, text, String.toList_append]
      rfl
    rw [ofString, htext, partsOf_slash, partsOf_slash, hparts, anchorOf_slash_slash hhead]

/-- The paths that are read back from their texts are those in normal form. -/
theorem ofString_text_eq_iff : ofString path.text = path ↔ path.IsNormal :=
  ⟨fun heq => heq ▸ ofString_isNormal path.text, ofString_text⟩

/-- Putting a text into normal form once more changes nothing. -/
theorem ofString_text_ofString (text : String) : ofString (ofString text).text = ofString text :=
  ofString_text_eq_iff.mpr (ofString_isNormal text)

end ApiClientGen.Path
