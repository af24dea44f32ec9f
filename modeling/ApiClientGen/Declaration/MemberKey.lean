import ApiClientGen.Declaration.Literal
import ApiClientGen.Naming.Identifier

/-!
The key of a member: its name where that is an identifier, a literal of it otherwise. A key is
read as far as it goes, so that what follows it must not go on with it.
-/
namespace ApiClientGen.Declaration

def memberKey (name : String) : String :=
  if Naming.isIdentifier name.toList then name else literal name

/-- The name of the member key at the start of a text, and what follows the key: a literal, or as
many identifier characters as there are. -/
def readMemberKey (text : List Char) : Option (List Char × List Char) :=
  match text with
  | '\'' :: rest => readLiteralBody rest
  | text =>
    match text.takeWhile Naming.isIdentifierChar with
    | [] => none
    | name => some (name, text.dropWhile Naming.isIdentifierChar)

structure BeginsWithRun (text run left : List Char) : Prop where
  ne_nil : run ≠ []
  chars : ∀ c ∈ run, Naming.isIdentifierChar c = true
  split : text = run ++ left
  ended : ∀ c, left.head? = some c → Naming.isIdentifierChar c = false

/-- A text begins with a key of a name: a literal of the name, or a run that is the name
itself. -/
def BeginsWithKey (text name left : List Char) : Prop :=
  (∃ body, Spells body name ∧ text = between body ++ left) ∨ BeginsWithRun text name left

section Reading

variable {text name run left : List Char}

/-- A quote is no identifier character, so that a run is never taken for a literal. -/
theorem BeginsWithRun.head?_ne (h : BeginsWithRun text run left) : text.head? ≠ some '\'' := by
  intro hhead
  cases run with
  | nil => exact h.ne_nil rfl
  | cons c rest =>
    have hc : c = '\'' := by simpa [h.split] using hhead
    have hchar : Naming.isIdentifierChar c = true := h.chars c (List.mem_cons_self ..)
    exact absurd hchar (by simp [hc, Naming.isIdentifierChar])

theorem BeginsWithRun.takeWhile_eq (h : BeginsWithRun text run left) :
    text.takeWhile Naming.isIdentifierChar = run := by
  rw [h.split, List.takeWhile_append_of_pos h.chars]
  cases left with
  | nil => simp
  | cons c rest => simp [h.ended c rfl]

theorem BeginsWithRun.dropWhile_eq (h : BeginsWithRun text run left) :
    text.dropWhile Naming.isIdentifierChar = left := by
  rw [h.split, List.dropWhile_append_of_pos h.chars]
  cases left with
  | nil => simp
  | cons c rest => simp [h.ended c rfl]

theorem beginsWithRun_takeWhile (h : text.takeWhile Naming.isIdentifierChar ≠ []) :
    BeginsWithRun text (text.takeWhile Naming.isIdentifierChar)
      (text.dropWhile Naming.isIdentifierChar) where
  ne_nil := h
  chars := List.all_eq_true.mp List.all_takeWhile
  split := List.takeWhile_append_dropWhile.symm
  ended := by
    intro c hc
    have hhead := List.head?_dropWhile_not Naming.isIdentifierChar text
    rwa [hc] at hhead

theorem readMemberKey_of_quote (h : text.head? = some '\'') :
    readMemberKey text = readLiteral text := by
  obtain ⟨rest, rfl⟩ := List.head?_eq_some_iff.mp h
  rfl

theorem readMemberKey_of_not_quote (h : text.head? ≠ some '\'') :
    readMemberKey text = some (name, left) ↔ BeginsWithRun text name left := by
  have hquote : ∀ rest, text ≠ '\'' :: rest := by
    intro rest hrest
    exact h (by rw [hrest, List.head?_cons])
  rw [readMemberKey.eq_2 text hquote]
  constructor
  · intro hread
    split at hread
    · cases hread
    · rename_i hrun
      cases hread
      exact beginsWithRun_takeWhile hrun
  · intro hrun
    rw [hrun.takeWhile_eq, hrun.dropWhile_eq]
    split
    · exact absurd rfl hrun.ne_nil
    · rfl

/-- Reading accepts exactly the texts that begin with a key. -/
theorem readMemberKey_eq_some_iff :
    readMemberKey text = some (name, left) ↔ BeginsWithKey text name left := by
  unfold BeginsWithKey
  by_cases hquote : text.head? = some '\''
  · have hrun : ¬ BeginsWithRun text name left := fun h => h.head?_ne hquote
    rw [readMemberKey_of_quote hquote, readLiteral_eq_some_iff, or_iff_left hrun]
  · have hliteral : ¬ ∃ body, Spells body name ∧ text = between body ++ left := by
      intro h
      obtain ⟨body, -, rfl⟩ := h
      exact hquote rfl
    rw [readMemberKey_of_not_quote hquote, or_iff_right hliteral]

end Reading

theorem isIdentifierChar_of_isIdentifierStart {c : Char} (h : Naming.isIdentifierStart c = true) :
    Naming.isIdentifierChar c = true := by
  simp only [Naming.isIdentifierStart, Naming.isIdentifierChar, Char.isAlphanum,
    Bool.or_eq_true] at h ⊢
  exact h.imp_left (.imp_left .inl)

theorem beginsWithRun_of_isIdentifier {name : List Char} (hname : Naming.isIdentifier name = true)
    {c : Char} (hc : Naming.isIdentifierChar c = false) (rest : List Char) :
    BeginsWithRun (name ++ c :: rest) name (c :: rest) := by
  cases name with
  | nil => cases hname
  | cons d chars =>
    rw [Naming.isIdentifier, Bool.and_eq_true, List.all_eq_true] at hname
    refine ⟨List.cons_ne_nil d chars, ?_, rfl, ?_⟩
    · exact List.forall_mem_cons.mpr ⟨isIdentifierChar_of_isIdentifierStart hname.1, hname.2⟩
    · intro e he
      cases he
      exact hc

theorem readMemberKey_identifier {name : List Char} (hname : Naming.isIdentifier name = true)
    {c : Char} (hc : Naming.isIdentifierChar c = false) (rest : List Char) :
    readMemberKey (name ++ c :: rest) = some (name, c :: rest) :=
  readMemberKey_eq_some_iff.mpr (Or.inr (beginsWithRun_of_isIdentifier hname hc rest))

/-- A key is read up to the first character that cannot go on with an identifier. -/
theorem readMemberKey_append (name : String) {c : Char} (hc : Naming.isIdentifierChar c = false)
    (rest : List Char) :
    readMemberKey ((memberKey name).toList ++ c :: rest) = some (name.toList, c :: rest) := by
  apply readMemberKey_eq_some_iff.mpr
  by_cases hname : Naming.isIdentifier name.toList = true
  · rw [memberKey, if_pos hname]
    exact Or.inr (beginsWithRun_of_isIdentifier hname hc rest)
  · rw [memberKey, if_neg hname]
    exact Or.inl ⟨_, spells_flatMap_literalChar name.toList, by simp [literal, between]⟩

end ApiClientGen.Declaration
