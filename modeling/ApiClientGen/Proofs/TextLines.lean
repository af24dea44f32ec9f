import ApiClientGen.Declaration.MemberKey
import ApiClientGen.Proofs.CaseForms
import ApiClientGen.Text.Comment
import ApiClientGen.Text.Lines
import Mathlib.Data.List.Basic

/-!
The lines of a text. Lines that hold no line feed are read back from the text that was made of
them. What is made fit for comments never holds one, and a literal, a member key or a change of
case brings none in.
-/
namespace ApiClientGen.TextLines

open Declaration Text

variable {text first second : String} {list more : List String}

/-- A text without a line feed. -/
def SingleLine (text : String) : Prop := '\n' ∉ text.toList

instance (text : String) : Decidable (SingleLine text) := inferInstanceAs (Decidable (¬ _))

def AllSingle (list : List String) : Prop := ∀ text ∈ list, SingleLine text

instance (list : List String) : Decidable (AllSingle list) :=
  inferInstanceAs (Decidable (∀ text ∈ list, SingleLine text))

@[simp] theorem singleLine_append_iff :
    SingleLine (first ++ second) ↔ SingleLine first ∧ SingleLine second := by
  rw [SingleLine, String.toList_append, List.mem_append, not_or]
  rfl

theorem singleLine_ofList_iff {text : List Char} :
    SingleLine (String.ofList text) ↔ '\n' ∉ text := by
  rw [SingleLine, String.toList_ofList]

/-- Fewer texts are single lines all the more. -/
theorem AllSingle.mono (h : AllSingle more) (hsub : list ⊆ more) : AllSingle list :=
  fun text htext => h text (hsub htext)

@[simp] theorem allSingle_nil : AllSingle [] := List.forall_mem_nil _

@[simp] theorem allSingle_cons_iff :
    AllSingle (text :: list) ↔ SingleLine text ∧ AllSingle list :=
  List.forall_mem_cons

@[simp] theorem allSingle_append_iff :
    AllSingle (list ++ more) ↔ AllSingle list ∧ AllSingle more :=
  List.forall_mem_append

theorem allSingle_map_iff {α : Type} {f : α → String} {items : List α} :
    AllSingle (items.map f) ↔ ∀ item ∈ items, SingleLine (f item) :=
  List.forall_mem_map

theorem allSingle_flatMap_iff {α : Type} {f : α → List String} {items : List α} :
    AllSingle (items.flatMap f) ↔ ∀ item ∈ items, AllSingle (f item) :=
  List.forall_mem_flatMap

section Reading

/-- What stands before the first cut is the first piece. -/
theorem pieces_append_cons {cut : Char → Bool} {front : List Char} {c : Char}
    (hfront : ∀ d ∈ front, cut d = false) (hc : cut c = true) (rest : List Char) :
    pieces cut (front ++ c :: rest) = front :: pieces cut rest := by
  rw [pieces_append_cut cut front hc, pieces_of_not_cut cut hfront, List.singleton_append]

/-- Parts without cuts are read back from the text in which a cut stands between them. -/
theorem pieces_intercalate {cut : Char → Bool} {c : Char} (hc : cut c = true)
    {parts : List (List Char)} (hne : parts ≠ [])
    (hparts : ∀ part ∈ parts, ∀ d ∈ part, cut d = false) :
    pieces cut (List.intercalate [c] parts) = parts := by
  induction parts with
  | nil => exact absurd rfl hne
  | cons part rest ih =>
    obtain ⟨hpart, hrest⟩ := List.forall_mem_cons.mp hparts
    cases rest with
    | nil => rw [List.intercalate_singleton, pieces_of_not_cut cut hpart]
    | cons next rest =>
      rw [List.intercalate_cons_cons, List.append_assoc, List.singleton_append,
        pieces_append_cons hpart hc, ih (List.cons_ne_nil next rest) hrest]

/-- Behind the last line feed nothing is left, which is one piece more. -/
theorem pieces_unlines (h : AllSingle list) :
    pieces (· == '\n') (unlines list).toList = list.map String.toList ++ [[]] := by
  induction list with
  | nil => rfl
  | cons line rest ih =>
    obtain ⟨hline, hrest⟩ := allSingle_cons_iff.mp h
    have htext :
        (unlines (line :: rest)).toList = line.toList ++ '\n' :: (unlines rest).toList := by
      simp
    rw [htext, pieces_append_cons (not_cut_of_not_mem hline) rfl, ih hrest]
    rfl

/-- The lines of which a text was made are its lines. -/
theorem lines_unlines (h : AllSingle list) : lines (unlines list) = list.map String.toList := by
  rw [lines, pieces_unlines h, if_pos List.getLast?_concat, List.dropLast_concat]

/-- Leaving lines out of a text leaves them out of the lines of which it was made. -/
theorem filter_lines_unlines (h : AllSingle list) (keep : List Char → Bool) :
    ((lines (unlines list)).filter keep).map String.ofList =
      list.filter fun line => keep line.toList := by
  have hback : String.ofList ∘ String.toList = id := funext fun line => String.ofList_toList
  rw [lines_unlines h, List.filter_map, List.map_map, hback, List.map_id]
  rfl

end Reading

section Parts

/-- What stands between the separators comes from the parts. -/
theorem mem_of_mem_intercalate {α : Type} {item : α} {separator : List α} {parts : List (List α)}
    (h : item ∈ List.intercalate separator parts) :
    item ∈ separator ∨ ∃ part ∈ parts, item ∈ part := by
  induction parts with
  | nil => cases h
  | cons part rest ih =>
    cases rest with
    | nil =>
      rw [List.intercalate_singleton] at h
      exact Or.inr ⟨part, List.mem_singleton_self part, h⟩
    | cons next rest =>
      rw [List.intercalate_cons_cons, List.mem_append, List.mem_append] at h
      rcases h with (hpart | hseparator) | hrest
      · exact Or.inr ⟨part, List.mem_cons_self .., hpart⟩
      · exact Or.inl hseparator
      · rcases ih hrest with hseparator | ⟨found, hfound, hitem⟩
        · exact Or.inl hseparator
        · exact Or.inr ⟨found, List.mem_cons_of_mem _ hfound, hitem⟩

/-- Texts on one line, joined by such a text, are on one line. -/
theorem singleLine_intercalate {separator : String} (hseparator : SingleLine separator)
    (h : AllSingle list) : SingleLine (String.intercalate separator list) := by
  intro hmem
  rw [String.toList_intercalate] at hmem
  rcases mem_of_mem_intercalate hmem with hbetween | ⟨part, hpart, hfeed⟩
  · exact hseparator hbetween
  · obtain ⟨text, htext, rfl⟩ := List.mem_map.mp hpart
    exact h text htext hfeed

/-- The words of a text are joined by spaces, so that no line feed is left. -/
theorem singleLine_oneLine (text : String) : SingleLine (oneLine text) := by
  rw [oneLine, singleLine_ofList_iff]
  intro hmem
  rcases mem_of_mem_intercalate hmem with hspace | ⟨word, hword, hfeed⟩
  · exact absurd hspace (by decide)
  · have hblank := not_cut_of_mem_pieces isBlank text.toList word (List.mem_of_mem_filter hword)
    exact absurd (hblank '\n' hfeed) (by decide)

/-- Defusing adds backslashes only. -/
theorem mem_of_mem_defuse {c : Char} {text : List Char} (hc : c ≠ '\\')
    (h : c ∈ defuse text) : c ∈ text := by
  fun_induction defuse text with
  | case1 rest ih =>
    simp only [List.mem_cons, hc, false_or] at h ⊢
    exact h.imp_right (Or.imp_right ih)
  | case2 d rest _ ih =>
    rw [List.mem_cons] at h ⊢
    exact h.imp_right ih
  | case3 => cases h

/-- A text in a comment block is on one line, whatever it holds. -/
theorem singleLine_docLine (text : String) : SingleLine (docLine text) := by
  rw [docLine, singleLine_ofList_iff]
  exact fun hmem => singleLine_oneLine text (mem_of_mem_defuse (by decide) hmem)

theorem singleLine_descriptionLine (description : Option String) :
    SingleLine (descriptionLine description) := by
  cases description with
  | none => decide
  | some text => exact singleLine_oneLine text

theorem singleLine_trim (h : SingleLine text) :
    SingleLine (String.ofList (trim text.toList)) := by
  rw [singleLine_ofList_iff]
  intro hmem
  rw [trim, trimBy, List.mem_reverse] at hmem
  have hback := (List.dropWhile_sublist isBlank).mem hmem
  exact h ((List.dropWhile_sublist isBlank).mem (List.mem_reverse.mp hback))

/-- A literal adds quotes and backslashes only. -/
theorem singleLine_literal (h : SingleLine text) : SingleLine (literal text) := by
  rw [literal, singleLine_ofList_iff]
  intro hmem
  simp only [List.cons_append, List.mem_cons, List.mem_append, List.mem_flatMap,
    List.not_mem_nil, or_false] at hmem
  rcases hmem with hquote | ⟨c, hc, hfeed⟩ | hquote
  · exact absurd hquote (by decide)
  · have hsame : '\n' = c := by
      rw [literalChar] at hfeed
      split at hfeed
      · simpa using hfeed
      · simpa using hfeed
    exact h (hsame ▸ hc)
  · exact absurd hquote (by decide)

theorem singleLine_literalUnion (h : AllSingle list) : SingleLine (literalUnion list) :=
  singleLine_intercalate (by decide)
    (allSingle_map_iff.mpr fun value hvalue => singleLine_literal (h value hvalue))

theorem singleLine_memberKey (h : SingleLine text) : SingleLine (memberKey text) := by
  rw [memberKey]
  split
  · exact h
  · exact singleLine_literal h

theorem singleLine_upper (h : SingleLine text) :
    SingleLine (String.ofList (upper text.toList)) := by
  rw [singleLine_ofList_iff]
  exact fun hmem => h (IsSign.mem_of_mem_upper (by decide) hmem)

theorem singleLine_upperFirst (h : SingleLine text) :
    SingleLine (String.ofList (upperFirst text.toList)) := by
  rw [singleLine_ofList_iff]
  exact fun hmem => h (IsSign.mem_of_mem_upperFirst (by decide) hmem)

theorem singleLine_lowerFirst (h : SingleLine text) :
    SingleLine (String.ofList (lowerFirst text.toList)) := by
  rw [singleLine_ofList_iff]
  exact fun hmem => h (IsSign.mem_of_mem_lowerFirst (by decide) hmem)

end Parts

end ApiClientGen.TextLines
