import ApiClientGen.Proofs.DocBlocks

/-!
The shape of free text in comments. It is the words of a text with one space between them, so that
it stands on one line, and only blanks are lost or added. In a documentation block the words are
made harmless one by one; they stay words, so that the line keeps its shape. What has its shape
already is left as it is.
-/
namespace ApiClientGen.CommentShape

open DocBlocks Text TextLines

/-- Some characters, one at least, none of which is blank. -/
def IsWord (word : List Char) : Prop :=
  word ≠ [] ∧ ∀ c ∈ word, isBlank c = false

def spaced (list : List (List Char)) : List Char :=
  List.intercalate [' '] list

/-- Wherever a blank stands in a text, it is a space, and right before and right behind it stand
characters that are not blank. -/
def OnOneLine (text : List Char) : Prop :=
  ∀ front c back, text = front ++ c :: back → isBlank c = true →
    c = ' ' ∧ (∃ d ∈ front.getLast?, isBlank d = false) ∧ ∃ d ∈ back.head?, isBlank d = false

variable {word text first second : List Char} {list : List (List Char)}

section Words

theorem isWord_of_mem_words (h : word ∈ words text) : IsWord word := by
  obtain ⟨hpiece, hne⟩ := List.mem_filter.mp h
  exact ⟨by simpa using hne, not_cut_of_mem_pieces isBlank text word hpiece⟩

/-- Words are read back from the text in which a space stands between them. -/
theorem words_spaced (h : ∀ word ∈ list, IsWord word) : words (spaced list) = list := by
  cases list with
  | nil => rfl
  | cons word rest =>
    have hpieces : pieces isBlank (spaced (word :: rest)) = word :: rest :=
      pieces_intercalate rfl (List.cons_ne_nil word rest) fun part hpart => (h part hpart).2
    rw [words, hpieces, List.filter_eq_self]
    intro part hpart
    simpa using (h part hpart).1

theorem flatten_pieces (text : List Char) :
    (pieces isBlank text).flatten = text.filter fun c => !isBlank c := by
  induction text with
  | nil => rfl
  | cons c rest ih =>
    rw [pieces, List.filter_cons, ← ih]
    by_cases hc : isBlank c = true
    · simp [hc]
    · obtain ⟨head, tail, hpieces⟩ := List.exists_cons_of_ne_nil (pieces_ne_nil isBlank rest)
      simp [hc, hpieces]

/-- Words lose nothing but blanks. -/
theorem flatten_words (text : List Char) :
    (words text).flatten = text.filter fun c => !isBlank c := by
  rw [words, List.flatten_filter_not_isEmpty, flatten_pieces]

theorem filter_spaced (h : ∀ word ∈ list, IsWord word) :
    (spaced list).filter (fun c => !isBlank c) = list.flatten := by
  rw [← flatten_words, words_spaced h]

end Words

section Shape

theorem spaced_cons_cons (word next : List Char) (rest : List (List Char)) :
    spaced (word :: next :: rest) = word ++ ' ' :: spaced (next :: rest) := by
  rw [spaced, List.intercalate_cons_cons, List.append_assoc, List.singleton_append]
  rfl

theorem IsWord.exists_head? (h : IsWord word) : ∃ d ∈ word.head?, isBlank d = false := by
  obtain ⟨d, rest, rfl⟩ := List.exists_cons_of_ne_nil h.1
  exact ⟨d, rfl, h.2 d (List.mem_cons_self ..)⟩

theorem IsWord.exists_getLast? (h : IsWord word) : ∃ d ∈ word.getLast?, isBlank d = false :=
  ⟨word.getLast h.1, List.getLast?_eq_some_getLast h.1, h.2 _ (List.getLast_mem h.1)⟩

theorem exists_head?_spaced (hword : IsWord word) (rest : List (List Char)) :
    ∃ d ∈ (spaced (word :: rest)).head?, isBlank d = false := by
  obtain ⟨d, hd, hblank⟩ := hword.exists_head?
  cases rest with
  | nil => exact ⟨d, by rwa [spaced, List.intercalate_singleton], hblank⟩
  | cons next rest =>
    refine ⟨d, ?_, hblank⟩
    rwa [spaced_cons_cons, List.head?_append_of_ne_nil word hword.1]

theorem onOneLine_of_isWord (h : IsWord word) : OnOneLine word := by
  rintro front c back rfl hblank
  rw [h.2 c (List.mem_append_cons_self)] at hblank
  cases hblank

/-- A word in front of a text keeps the shape: the blanks are those of the text, and the space
between the two. -/
theorem OnOneLine.word_append (hword : IsWord word) (h : OnOneLine text)
    (hhead : ∃ d ∈ text.head?, isBlank d = false) : OnOneLine (word ++ ' ' :: text) := by
  intro front c back heq hblank
  rcases List.append_eq_append_iff.mp heq with ⟨middle, rfl, htext⟩ | ⟨middle, rfl, htext⟩
  · cases middle with
    | nil =>
      obtain ⟨rfl, rfl⟩ := List.cons.inj htext
      rw [List.append_nil]
      exact ⟨rfl, hword.exists_getLast?, hhead⟩
    | cons d middle =>
      obtain ⟨rfl, rfl⟩ := List.cons.inj htext
      obtain ⟨hspace, ⟨e, he, hbefore⟩, hbehind⟩ := h middle c back rfl hblank
      refine ⟨hspace, ⟨e, ?_, hbefore⟩, hbehind⟩
      have hmiddle : middle ≠ [] := by
        rintro rfl
        cases he
      rwa [List.append_cons, List.getLast?_append_of_ne_nil _ hmiddle]
  · cases middle with
    | nil =>
      obtain ⟨rfl, rfl⟩ := List.cons.inj htext
      rw [List.append_nil] at hword
      exact ⟨rfl, hword.exists_getLast?, hhead⟩
    | cons d middle =>
      obtain ⟨rfl, -⟩ := List.cons.inj htext
      rw [hword.2 c List.mem_append_cons_self] at hblank
      cases hblank

theorem onOneLine_spaced (h : ∀ word ∈ list, IsWord word) : OnOneLine (spaced list) := by
  induction list with
  | nil =>
    intro front c back heq
    exact absurd heq.symm (List.append_ne_nil_of_right_ne_nil _ (List.cons_ne_nil _ _))
  | cons word rest ih =>
    obtain ⟨hword, hrest⟩ := List.forall_mem_cons.mp h
    cases rest with
    | nil =>
      rw [spaced, List.intercalate_singleton]
      exact onOneLine_of_isWord hword
    | cons next rest =>
      have hnext : IsWord next := hrest next (List.mem_cons_self ..)
      rw [spaced_cons_cons]
      exact OnOneLine.word_append hword (ih hrest) (exists_head?_spaced hnext rest)

theorem OnOneLine.eq_space {c : Char} (h : OnOneLine text) (hc : c ∈ text)
    (hblank : isBlank c = true) : c = ' ' := by
  obtain ⟨front, back, rfl⟩ := List.append_of_mem hc
  exact (h front c back rfl hblank).1

/-- No character that ends a line stands in such a text. -/
theorem OnOneLine.not_mem {c : Char} (h : OnOneLine text)
    (hc : c ∈ ['\n', '\r', '\u2028', '\u2029']) : c ∉ text := by
  have hends : isBlank c = true ∧ c ≠ ' ' := by
    simp only [List.mem_cons, List.not_mem_nil, or_false] at hc
    rcases hc with rfl | rfl | rfl | rfl
    all_goals exact ⟨rfl, by decide⟩
  exact fun hmem => hends.2 (h.eq_space hmem hends.1)

end Shape

section Defused

theorem defuse_cons {c : Char} (h : c ≠ '*' ∨ text.head? ≠ some '/') :
    defuse (c :: text) = c :: defuse text := by
  refine defuse.eq_2 c text ?_
  rintro rest rfl rfl
  rcases h with h | h
  · exact h rfl
  · exact h rfl

/-- No mark is made where a text without a slash in front follows. -/
theorem defuse_append (h : second.head? ≠ some '/') :
    defuse (first ++ second) = defuse first ++ defuse second := by
  fun_induction defuse first with
  | case1 rest ih => rw [List.cons_append, List.cons_append, defuse, ih]; rfl
  | case2 c rest hno ih =>
    rw [List.cons_append, defuse_cons, ih, List.cons_append]
    by_cases hc : c = '*'
    · refine .inr ?_
      cases rest with
      | nil => exact h
      | cons d rest =>
        rw [List.cons_append, List.head?_cons, ne_eq, Option.some.injEq]
        exact fun hd => hno rest hc (hd ▸ rfl)
    · exact .inl hc
  | case3 => rfl

/-- The words of a text are made harmless one by one. -/
theorem defuse_spaced (list : List (List Char)) :
    defuse (spaced list) = spaced (list.map defuse) := by
  induction list with
  | nil => rfl
  | cons word rest ih =>
    cases rest with
    | nil => rw [spaced, List.intercalate_singleton]; exact (List.intercalate_singleton).symm
    | cons next rest =>
      have hspace : (' ' :: spaced (next :: rest)).head? ≠ some '/' := by simp
      rw [spaced_cons_cons, defuse_append hspace, defuse_cons (.inl (by decide)), ih]
      exact (spaced_cons_cons _ _ _).symm

theorem defuse_eq_self (h : marksIn text = 0) : defuse text = text := by
  fun_induction defuse text with
  | case1 rest ih => exact absurd h (Nat.succ_ne_zero _)
  | case2 c rest hno ih =>
    rw [marksIn.eq_2 c rest hno] at h
    rw [ih h]
  | case3 => rfl

theorem isWord_defuse (h : IsWord word) : IsWord (defuse word) := by
  refine ⟨fun hnil => h.1 ?_, fun c hc => ?_⟩
  · have hhead := head?_defuse word
    rwa [hnil, List.head?_nil, eq_comm, List.head?_eq_none_iff] at hhead
  · by_cases hback : c = '\\'
    · subst hback
      rfl
    · exact h.2 c (mem_of_mem_defuse hback hc)

end Defused

section Lines

variable (text : String)

def docWords (text : String) : List (List Char) := (words text.toList).map defuse

theorem toList_oneLine : (oneLine text).toList = spaced (words text.toList) :=
  String.toList_ofList

theorem toList_docLine : (docLine text).toList = spaced (docWords text) := by
  rw [docLine, String.toList_ofList, toList_oneLine, defuse_spaced, docWords]

theorem isWord_of_mem_docWords : ∀ word ∈ docWords text, IsWord word := by
  intro word hword
  obtain ⟨plain, hplain, rfl⟩ := List.mem_map.mp hword
  exact isWord_defuse (isWord_of_mem_words hplain)

/-- A text whose words stand with one space between them is its own line. -/
theorem oneLine_eq_self {text : String} (h : text.toList = spaced list)
    (hlist : ∀ word ∈ list, IsWord word) : oneLine text = text := by
  rw [← String.toList_inj, toList_oneLine, h, words_spaced hlist]

theorem docLine_eq_iff :
    docLine text = oneLine text ↔ ¬ "*/".toList <:+: (oneLine text).toList := by
  refine Iff.trans ⟨fun heq => ?_, fun hnone => ?_⟩ marksIn_eq_zero_iff
  · rw [← heq, docLine, String.toList_ofList, marksIn_defuse]
  · rw [docLine, defuse_eq_self hnone, String.ofList_toList]

theorem docLine_docLine : docLine (docLine text) = docLine text := by
  have hline : oneLine (docLine text) = docLine text :=
    oneLine_eq_self (toList_docLine text) (isWord_of_mem_docWords text)
  have hclosed : ¬ "*/".toList <:+: (oneLine (docLine text)).toList := by
    rw [hline]
    exact marksIn_eq_zero_iff.mp (closings_docLine text)
  exact ((docLine_eq_iff _).mpr hclosed).trans hline

end Lines

/-- Free text in a comment stands on one line with single spaces between its words; nothing but
blanks is lost or added, and a text of this shape is left as it is. In a documentation block the
line has the same shape and never closes the block; a second pass changes nothing, and the line
differs from that in a plain comment just when the latter would close the block. -/
theorem comment_lines_keep_shape (text : String) :
    OnOneLine (oneLine text).toList ∧
      (∀ c ∈ ['\n', '\r', '\u2028', '\u2029'], c ∉ (oneLine text).toList) ∧
      (oneLine text).toList.filter (fun c => !isBlank c) =
        text.toList.filter (fun c => !isBlank c) ∧
      oneLine (oneLine text) = oneLine text ∧
      OnOneLine (docLine text).toList ∧
      (∀ c ∈ ['\n', '\r', '\u2028', '\u2029'], c ∉ (docLine text).toList) ∧
      ¬ "*/".toList <:+: (docLine text).toList ∧
      docLine (docLine text) = docLine text ∧
      (docLine text = oneLine text ↔ ¬ "*/".toList <:+: (oneLine text).toList) := by
  have hwords : ∀ word ∈ words text.toList, IsWord word := fun word => isWord_of_mem_words
  have hplain : OnOneLine (oneLine text).toList := by
    rw [toList_oneLine]
    exact onOneLine_spaced hwords
  have hdoc : OnOneLine (docLine text).toList := by
    rw [toList_docLine]
    exact onOneLine_spaced (isWord_of_mem_docWords text)
  have hkept : (oneLine text).toList.filter (fun c => !isBlank c) =
      text.toList.filter (fun c => !isBlank c) := by
    rw [toList_oneLine, filter_spaced hwords, flatten_words]
  exact ⟨hplain, fun c hc => hplain.not_mem hc, hkept,
    oneLine_eq_self (toList_oneLine text) hwords, hdoc, fun c hc => hdoc.not_mem hc,
    marksIn_eq_zero_iff.mp (closings_docLine text), docLine_docLine text, docLine_eq_iff text⟩

end ApiClientGen.CommentShape
