/-!
String literals in single quotes, and unions of them. A backslash stands before each quote and
each backslash of the value. Reading a literal gives the value back, whatever follows the literal,
and leaves less text than there was.
-/
namespace ApiClientGen.Declaration

def literalChar (c : Char) : List Char :=
  if c = '\\' ∨ c = '\'' then ['\\', c] else [c]

def literal (value : String) : String :=
  String.ofList ('\'' :: value.toList.flatMap literalChar ++ ['\''])

def literalUnion (values : List String) : String :=
  String.intercalate " | " (values.map literal)

/-- The value up to the closing quote, and what follows the quote. -/
def readLiteralBody : List Char → Option (List Char × List Char)
  | [] => none
  | '\'' :: rest => some ([], rest)
  | '\\' :: c :: rest => (readLiteralBody rest).map fun (value, left) => (c :: value, left)
  | ['\\'] => none
  | c :: rest => (readLiteralBody rest).map fun (value, left) => (c :: value, left)

def readLiteral : List Char → Option (List Char × List Char)
  | '\'' :: rest => readLiteralBody rest
  | _ => none

/-- What may stand between the quotes of a literal of a value: a backslash stands for the
character behind it, and any other character but the quote for itself. -/
inductive Spells : List Char → List Char → Prop
  | nil : Spells [] []
  | escaped (c : Char) {body value : List Char} (h : Spells body value) :
      Spells ('\\' :: c :: body) (c :: value)
  | plain {c : Char} {body value : List Char} (hbackslash : c ≠ '\\') (hquote : c ≠ '\'')
      (h : Spells body value) : Spells (c :: body) (c :: value)

theorem spells_flatMap_literalChar (value : List Char) :
    Spells (value.flatMap literalChar) value := by
  induction value with
  | nil => exact .nil
  | cons c value ih =>
    rw [List.flatMap_cons, literalChar]
    split
    · exact .escaped c ih
    · rename_i hplain
      rw [not_or] at hplain
      exact .plain hplain.1 hplain.2 ih

theorem Spells.readLiteralBody {body value : List Char} (h : Spells body value)
    (rest : List Char) : readLiteralBody (body ++ '\'' :: rest) = some (value, rest) := by
  induction h with
  | nil => rfl
  | escaped c h ih =>
    rw [List.cons_append, List.cons_append, Declaration.readLiteralBody, ih]
    rfl
  | @plain c body value hbackslash hquote h ih =>
    rw [List.cons_append, Declaration.readLiteralBody, ih]
    · rfl
    · exact hquote
    · intro d text hc
      exact absurd hc hbackslash
    · intro hc
      exact absurd hc hbackslash

theorem exists_spells_of_readLiteralBody {text value left : List Char}
    (h : readLiteralBody text = some (value, left)) :
    ∃ body, Spells body value ∧ text = body ++ '\'' :: left := by
  fun_induction readLiteralBody text generalizing value with
  | case1 => cases h
  | case2 rest =>
    cases h
    exact ⟨[], .nil, rfl⟩
  | case3 c rest ih =>
    obtain ⟨⟨inner, behind⟩, hread, heq⟩ := Option.map_eq_some_iff.mp h
    cases heq
    obtain ⟨body, hspells, rfl⟩ := ih hread
    exact ⟨'\\' :: c :: body, .escaped c hspells, rfl⟩
  | case4 => cases h
  | case5 c rest hquote hescape _ ih =>
    obtain ⟨⟨inner, behind⟩, hread, heq⟩ := Option.map_eq_some_iff.mp h
    cases heq
    obtain ⟨body, hspells, rfl⟩ := ih hread
    refine ⟨c :: body, .plain ?_ hquote hspells, rfl⟩
    -- A backslash here would have a character behind it, at least the closing quote.
    rintro rfl
    cases body with
    | nil => exact hescape '\'' left rfl rfl
    | cons d body => exact hescape d (body ++ '\'' :: left) rfl rfl

/-- Reading accepts exactly what spells a value, with a quote behind it. -/
theorem readLiteralBody_eq_some_iff {text value left : List Char} :
    readLiteralBody text = some (value, left) ↔
      ∃ body, Spells body value ∧ text = body ++ '\'' :: left := by
  constructor
  · exact exists_spells_of_readLiteralBody
  · rintro ⟨body, h, rfl⟩
    exact h.readLiteralBody left

theorem readLiteralBody_append (value rest : List Char) :
    readLiteralBody (value.flatMap literalChar ++ '\'' :: rest) = some (value, rest) :=
  (spells_flatMap_literalChar value).readLiteralBody rest

theorem length_lt_of_readLiteralBody {text value left : List Char}
    (h : readLiteralBody text = some (value, left)) : left.length < text.length := by
  obtain ⟨body, -, rfl⟩ := readLiteralBody_eq_some_iff.mp h
  rw [List.length_append, List.length_cons]
  omega

def between (body : List Char) : List Char := '\'' :: (body ++ ['\''])

theorem readLiteral_eq_some_iff {text value left : List Char} :
    readLiteral text = some (value, left) ↔
      ∃ body, Spells body value ∧ text = between body ++ left := by
  constructor
  · intro h
    unfold readLiteral at h
    split at h
    · obtain ⟨body, hbody, rfl⟩ := readLiteralBody_eq_some_iff.mp h
      exact ⟨body, hbody, by simp [between]⟩
    · cases h
  · intro h
    obtain ⟨body, hbody, rfl⟩ := h
    have htext : between body ++ left = '\'' :: (body ++ '\'' :: left) := by simp [between]
    rw [htext, readLiteral, hbody.readLiteralBody]

def readAlternatives : List Char → Option (List (List Char))
  | [] => some []
  | ' ' :: '|' :: ' ' :: '\'' :: rest =>
    match _ : readLiteralBody rest with
    | some (value, left) => (readAlternatives left).map (value :: ·)
    | none => none
  | _ => none
  termination_by text => text.length
  decreasing_by
    have := length_lt_of_readLiteralBody ‹_ = some (value, left)›
    simp only [List.length_cons]
    omega

def readUnion : List Char → Option (List (List Char))
  | [] => some []
  | text =>
    match readLiteral text with
    | some (value, left) => (readAlternatives left).map (value :: ·)
    | none => none

end ApiClientGen.Declaration
