/-!
Blank characters, the words between them, and text cut at a separator. `pieces` loses nothing:
joining what it returns with the separator gives the text back.
-/
namespace ApiClientGen.Text

/-- A blank: white space of any script, or one of the four separators U+001C to U+001F. -/
def isBlank (c : Char) : Bool :=
  let n := c.toNat
  (0x09 ≤ n && n ≤ 0x0D) || (0x1C ≤ n && n ≤ 0x20) || n == 0x85 || n == 0xA0 || n == 0x1680 ||
    (0x2000 ≤ n && n ≤ 0x200A) || n == 0x2028 || n == 0x2029 || n == 0x202F || n == 0x205F ||
    n == 0x3000

/-- The parts of a text between the characters that satisfy `cut`; one more than there are
cuts. -/
def pieces (cut : Char → Bool) : List Char → List (List Char)
  | [] => [[]]
  | c :: rest => if cut c then [] :: pieces cut rest else (pieces cut rest).modifyHead (c :: ·)

def words (text : List Char) : List (List Char) :=
  (pieces isBlank text).filter fun word => !word.isEmpty

def trimBy (drop : Char → Bool) (text : List Char) : List Char :=
  ((text.dropWhile drop).reverse.dropWhile drop).reverse

def trim (text : List Char) : List Char :=
  trimBy isBlank text

theorem pieces_ne_nil (cut : Char → Bool) (text : List Char) : pieces cut text ≠ [] := by
  induction text with
  | nil => simp [pieces]
  | cons c rest ih =>
    rw [pieces]
    split
    · simp
    · cases h : pieces cut rest with
      | nil => exact absurd h ih
      | cons head tail => simp

/-- No piece holds a character at which the text was cut. -/
theorem not_cut_of_mem_pieces (cut : Char → Bool) (text : List Char) :
    ∀ piece ∈ pieces cut text, ∀ c ∈ piece, cut c = false := by
  induction text with
  | nil => simp [pieces]
  | cons c rest ih =>
    intro piece hpiece d hd
    rw [pieces] at hpiece
    split at hpiece
    · rcases List.mem_cons.mp hpiece with rfl | hmem
      · simp at hd
      · exact ih piece hmem d hd
    · rename_i hc
      cases h : pieces cut rest with
      | nil => exact absurd h (pieces_ne_nil cut rest)
      | cons head tail =>
        rw [h] at hpiece ih
        simp only [List.modifyHead_cons, List.mem_cons] at hpiece
        rcases hpiece with rfl | hmem
        · rcases List.mem_cons.mp hd with rfl | hd
          · simpa using hc
          · exact ih head (List.mem_cons_self ..) d hd
        · exact ih piece (List.mem_cons_of_mem _ hmem) d hd

theorem pieces_of_not_cut (cut : Char → Bool) {text : List Char} (h : ∀ c ∈ text, cut c = false) :
    pieces cut text = [text] := by
  induction text with
  | nil => rfl
  | cons c rest ih =>
    have hrest : pieces cut rest = [rest] := ih fun d hd => h d (List.mem_cons_of_mem _ hd)
    rw [pieces, h c (List.mem_cons_self ..), if_neg Bool.false_ne_true, hrest]
    rfl

theorem not_cut_of_not_mem {text : List Char} {c : Char} (h : c ∉ text) :
    ∀ d ∈ text, (d == c) = false := by
  intro d hd
  rw [beq_eq_false_iff_ne]
  intro heq
  exact h (heq ▸ hd)

/-- A text is cut on both sides of a cut on its own. -/
theorem pieces_append_cut (cut : Char → Bool) (front : List Char) {c : Char} (hc : cut c = true)
    (rest : List Char) :
    pieces cut (front ++ c :: rest) = pieces cut front ++ pieces cut rest := by
  induction front with
  | nil =>
    have hfirst : pieces cut (c :: rest) = [] :: pieces cut rest := by rw [pieces, if_pos hc]
    exact hfirst
  | cons d front ih =>
    rw [List.cons_append, pieces, pieces, ih]
    by_cases hd : cut d = true
    · rw [if_pos hd, if_pos hd, List.cons_append]
    · rw [if_neg hd, if_neg hd]
      cases hpieces : pieces cut front with
      | nil => exact absurd hpieces (pieces_ne_nil cut front)
      | cons head tail => rfl

/-- What follows the last cut goes to the last piece. -/
theorem exists_pieces_append (cut : Char → Bool) (text : List Char) {more : List Char}
    (h : ∀ c ∈ more, cut c = false) :
    ∃ front last, pieces cut text = front ++ [last] ∧
      pieces cut (text ++ more) = front ++ [last ++ more] := by
  induction text with
  | nil => exact ⟨[], [], rfl, pieces_of_not_cut cut h⟩
  | cons c rest ih =>
    obtain ⟨front, last, hrest, happend⟩ := ih
    rw [List.cons_append, pieces, pieces, hrest, happend]
    by_cases hc : cut c = true
    · rw [if_pos hc, if_pos hc]
      exact ⟨[] :: front, last, rfl, rfl⟩
    · rw [if_neg hc, if_neg hc]
      cases front with
      | nil => exact ⟨[], c :: last, rfl, rfl⟩
      | cons piece front => exact ⟨(c :: piece) :: front, last, rfl, rfl⟩

end ApiClientGen.Text
