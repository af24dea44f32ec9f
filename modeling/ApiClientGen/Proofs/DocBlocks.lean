import ApiClientGen.Proofs.ParameterGroups
import ApiClientGen.Proofs.TextLines
import Mathlib.Data.List.Induction

/-!
Where the documentation block of a method ends. Its last line closes it. What is said in remarks
and descriptions never closes it before that line, but names, types and values stand in the block
as they are, and each `*/` in them closes it once more.
-/
namespace ApiClientGen.DocBlocks

open Declaration ParameterGroups Text

def marksIn : List Char → Nat
  | '*' :: '/' :: rest => marksIn rest + 1
  | _ :: rest => marksIn rest
  | [] => 0

/-- How often a text closes a comment. -/
def closings (text : String) : Nat := marksIn text.toList

/-- How often the texts of a list close a comment, each read on its own. -/
def total : List String → Nat
  | [] => 0
  | text :: rest => closings text + total rest

/-- A text that cannot be a part of `*/` together with what stands before or behind it. -/
def IsBarrier (text : String) : Prop :=
  text ≠ "" ∧ text.toList.head? ≠ some '/' ∧ text.toList.getLast? ≠ some '*'

instance (text : String) : Decidable (IsBarrier text) := inferInstanceAs (Decidable (_ ∧ _ ∧ _))

section Marks

variable {c : Char} {text first second : List Char}

/-- A closing mark begins only at a star with a slash behind it. -/
theorem marksIn_cons (h : c ≠ '*' ∨ text.head? ≠ some '/') :
    marksIn (c :: text) = marksIn text := by
  refine marksIn.eq_2 c text ?_
  rintro rest rfl rfl
  rcases h with h | h
  · exact h rfl
  · exact h rfl

/-- No mark stands across the border of two texts unless the first ends with its star and the
second begins with its slash. -/
theorem marksIn_append (h : first.getLast? ≠ some '*' ∨ second.head? ≠ some '/') :
    marksIn (first ++ second) = marksIn first + marksIn second := by
  fun_induction marksIn first with
  | case1 rest ih =>
    have hrest : rest.getLast? ≠ some '*' ∨ second.head? ≠ some '/' := by
      refine h.imp_left fun hlast heq => hlast ?_
      rw [List.getLast?_cons, List.getLast?_cons, heq]
      rfl
    rw [List.cons_append, List.cons_append, marksIn, ih hrest]
    omega
  | case2 c rest hno ih =>
    cases rest with
    | nil =>
      rw [List.singleton_append, marksIn_cons, marksIn, Nat.zero_add]
      refine h.imp_left fun hlast heq => hlast ?_
      rw [heq]
      rfl
    | cons d rest =>
      rw [List.cons_append, marksIn_cons, ih]
      · rwa [List.getLast?_cons_cons] at h
      · by_cases hc : c = '*'
        · refine .inr fun hd => hno rest hc ?_
          rw [List.cons_append, List.head?_cons, Option.some.injEq] at hd
          rw [hd]
        · exact .inl hc
  | case3 => rw [List.nil_append, Nat.zero_add]

/-- A text without a star adds no mark to what follows it. -/
theorem marksIn_append_of_no_star (h : '*' ∉ first) : marksIn (first ++ text) = marksIn text := by
  induction first with
  | nil => rfl
  | cons c rest ih =>
    rw [List.mem_cons, not_or] at h
    rw [List.cons_append, marksIn_cons (.inl (Ne.symm h.1)), ih h.2]

theorem marksIn_eq_zero_iff : marksIn text = 0 ↔ ¬ ['*', '/'] <:+: text := by
  fun_induction marksIn text with
  | case1 rest ih =>
    refine iff_of_false (Nat.succ_ne_zero _) (not_not_intro ?_)
    exact (List.prefix_append ['*', '/'] rest).isInfix
  | case2 c rest hno ih =>
    rw [ih, List.infix_cons_iff, not_or, and_iff_right]
    rintro ⟨more, hmore⟩
    simp only [List.cons_append, List.nil_append, List.cons.injEq] at hmore
    exact hno more hmore.1.symm hmore.2.symm
  | case3 =>
    refine iff_of_true rfl fun h => ?_
    exact absurd (List.infix_nil.mp h) (List.cons_ne_nil _ _)

end Marks

section Texts

variable {first second : String}

/-- Closing marks are counted apart where none stands across the seam. -/
theorem closings_append
    (h : first.toList.getLast? ≠ some '*' ∨ second.toList.head? ≠ some '/') :
    closings (first ++ second) = closings first + closings second := by
  rw [closings, String.toList_append, marksIn_append h]
  rfl

/-- A text that can be no part of a mark keeps the two at its sides apart. -/
theorem closings_between {between : String} (h : IsBarrier between) (first second : String) :
    closings (first ++ between ++ second) =
      closings first + closings between + closings second := by
  obtain ⟨hne, hhead, hlast⟩ := h
  have hback : (first ++ between).toList.getLast? = between.toList.getLast? := by
    rw [String.toList_append, List.getLast?_append_of_ne_nil]
    rwa [ne_eq, String.toList_eq_nil_iff]
  rw [closings_append (.inl (hback ▸ hlast)), closings_append (.inr hhead)]

theorem total_append (first second : List String) :
    total (first ++ second) = total first + total second := by
  induction first with
  | nil => exact (Nat.zero_add _).symm
  | cons text rest ih => rw [List.cons_append, total, ih, total, Nat.add_assoc]

/-- Texts that close comments as often as others count like these. -/
theorem total_map {f : String → String} (h : ∀ text, closings (f text) = closings text)
    (texts : List String) : total (texts.map f) = total texts := by
  induction texts with
  | nil => rfl
  | cons text rest ih => rw [List.map_cons, total, total, h, ih]

theorem total_map_eq_flatMap {α : Type} {f : α → String} {texts : α → List String}
    (h : ∀ item, closings (f item) = total (texts item)) (items : List α) :
    total (items.map f) = total (items.flatMap texts) := by
  induction items with
  | nil => rfl
  | cons item rest ih => rw [List.map_cons, total, h, ih, List.flatMap_cons, total_append]

theorem total_flatMap_congr {α : Type} {f g : α → List String}
    (h : ∀ item, total (f item) = total (g item)) (items : List α) :
    total (items.flatMap f) = total (items.flatMap g) := by
  induction items with
  | nil => rfl
  | cons item rest ih =>
    rw [List.flatMap_cons, List.flatMap_cons, total_append, total_append, h, ih]

/-- The order of the texts does not bear on the total. -/
theorem total_perm {first second : List String} (h : first.Perm second) :
    total first = total second := by
  induction h with
  | nil => rfl
  | cons text _ ih => rw [total, total, ih]
  | swap text next rest => simp only [total, Nat.add_left_comm]
  | trans _ _ ih ih' => rw [ih, ih']

/-- Nothing is closed exactly if none of the texts holds a closing mark. -/
theorem total_eq_zero_iff {texts : List String} :
    total texts = 0 ↔ ∀ text ∈ texts, ¬ "*/".toList <:+: text.toList := by
  induction texts with
  | nil => exact iff_of_true rfl (List.forall_mem_nil _)
  | cons text rest ih =>
    rw [total, Nat.add_eq_zero_iff, ih, List.forall_mem_cons]
    exact and_congr_left fun _ => marksIn_eq_zero_iff

end Texts

section FreeText

/-- The first character stays what it is when marks are taken out. -/
theorem head?_defuse (text : List Char) : (defuse text).head? = text.head? := by
  fun_cases defuse text with
  | case1 rest => rfl
  | case2 c rest _ => rfl
  | case3 => rfl

theorem marksIn_defuse (text : List Char) : marksIn (defuse text) = 0 := by
  fun_induction defuse text with
  | case1 rest ih =>
    rw [marksIn_cons (.inr (by simp)), marksIn_cons (.inl (by decide)),
      marksIn_cons (.inl (by decide)), ih]
  | case2 c rest hno ih =>
    rw [marksIn_cons, ih]
    by_cases hc : c = '*'
    · rw [head?_defuse]
      refine .inr fun hhead => ?_
      obtain ⟨tail, rfl⟩ := List.head?_eq_some_iff.mp hhead
      exact hno tail hc rfl
    · exact .inl hc
  | case3 => rfl

/-- What is made fit for a documentation block cannot close it. -/
theorem closings_docLine (text : String) : closings (docLine text) = 0 := by
  rw [closings, docLine, String.toList_ofList, marksIn_defuse]

end FreeText

section Parts

/-- No blank is part of a closing mark. -/
theorem marksIn_dropBlanks (text : List Char) :
    marksIn (text.dropWhile isBlank) = marksIn text := by
  induction text with
  | nil => rfl
  | cons c rest ih =>
    rw [List.dropWhile_cons]
    split
    · rename_i hblank
      rw [ih, marksIn_cons (.inl _)]
      rintro rfl
      exact absurd hblank (by decide)
    · rfl

theorem marksIn_dropLastBlanks (text : List Char) :
    marksIn (text.reverse.dropWhile isBlank).reverse = marksIn text := by
  induction text using List.reverseRecOn with
  | nil => rfl
  | append_singleton text c ih =>
    rw [List.reverse_concat, List.dropWhile_cons]
    split
    · rename_i hblank
      have hstar : c ≠ '*' := by
        rintro rfl
        exact absurd hblank (by decide)
      have hslash : c ≠ '/' := by
        rintro rfl
        exact absurd hblank (by decide)
      have hone : marksIn [c] = 0 := marksIn_cons (.inl hstar)
      rw [ih, marksIn_append (.inr _), hone, Nat.add_zero]
      simpa using hslash
    · rw [List.reverse_cons, List.reverse_reverse]

/-- A mark has no blank, so that none is lost with the blanks around a text. -/
theorem closings_trim (text : String) :
    closings (String.ofList (trim text.toList)) = closings text := by
  rw [closings, String.toList_ofList, trim, trimBy, marksIn_dropLastBlanks, marksIn_dropBlanks]
  rfl

/-- A literal begins with a slash only if the value does. -/
theorem head?_literalChars (value : List Char) (h : value.head? ≠ some '/') :
    (value.flatMap literalChar).head? ≠ some '/' := by
  cases value with
  | nil => exact h
  | cons c rest =>
    rw [List.flatMap_cons, literalChar]
    split
    · simp
    · exact h

theorem marksIn_literalChars (value : List Char) :
    marksIn (value.flatMap literalChar) = marksIn value := by
  fun_induction marksIn value with
  | case1 rest ih =>
    rw [List.flatMap_cons, List.flatMap_cons]
    exact congrArg (· + 1) ih
  | case2 c rest hno ih =>
    rw [List.flatMap_cons]
    by_cases hc : c = '*'
    · subst hc
      refine (marksIn_cons (.inr (head?_literalChars rest fun hhead => ?_))).trans ih
      obtain ⟨tail, rfl⟩ := List.head?_eq_some_iff.mp hhead
      exact hno tail rfl rfl
    · rw [marksIn_append_of_no_star, ih]
      rw [literalChar]
      split
      · simpa using Ne.symm hc
      · simpa using Ne.symm hc
  | case3 => rfl

/-- The backslashes of a literal stand before quotes and backslashes only. -/
theorem closings_literal (value : String) : closings (literal value) = closings value := by
  rw [closings, literal, String.toList_ofList, List.cons_append, marksIn_cons (.inl (by decide)),
    marksIn_append (.inr (by decide)), marksIn_literalChars]
  rfl

/-- Joined texts close a comment as often as they do one by one. -/
theorem closings_intercalate {separator : String} (h : IsBarrier separator)
    (hnone : closings separator = 0) (texts : List String) :
    closings (String.intercalate separator texts) = total texts := by
  induction texts with
  | nil => rfl
  | cons text rest ih =>
    cases rest with
    | nil => rfl
    | cons next rest =>
      rw [String.intercalate_cons_cons, closings_between h, ih, hnone]
      rfl

end Parts

section Lines

def parameterTexts (parameter : Parameter) : List String :=
  parameter.typeName :: parameter.name :: parameter.enum.getD []

def located (operation : Operation) : List Parameter :=
  operation.parameters.filter fun parameter => parameter.location.isSome

/-- The texts of an operation that stand in the block as they are. -/
def bareTexts (operation : Operation) : List String :=
  operation.nickname :: ((located operation).flatMap parameterTexts ++ [operation.returnType])

/-- There is something to document: a summary, notes, or a parameter in a group. -/
def Documented (operation : Operation) : Prop :=
  nonempty? operation.summary ≠ none ∨ nonempty? operation.notes ≠ none ∨ located operation ≠ []

variable (operation : Operation)

/-- A change of case neither takes a mark out nor brings one in. -/
theorem marksIn_upperFirst (text : List Char) : marksIn (upperFirst text) = marksIn text := by
  cases text with
  | nil => rfl
  | cons c rest =>
    rw [upperFirst]
    by_cases hc : c = '*'
    · subst hc
      rfl
    · rw [marksIn_append_of_no_star, marksIn_cons (.inl hc)]
      exact fun hstar => hc (IsSign.eq_of_mem_upperChar (by decide) hstar).symm

/-- The name of options closes a comment as often as the nickname in it: the first character gives
no mark in its capital form either. -/
theorem closings_optionsName : closings operation.optionsName = closings operation.nickname := by
  have hname : closings (String.ofList (upperFirst operation.nickname.toList)) =
      closings operation.nickname := by
    rw [closings, String.toList_ofList, marksIn_upperFirst]
    rfl
  rw [Operation.optionsName, closings_append (.inr (by decide)),
    closings_append (.inl (by decide)), hname]
  exact Nat.zero_add _

theorem closings_bracketed (name : String) (optional : Bool) :
    closings (bracketed name optional) = closings name := by
  rw [bracketed]
  split
  · rw [closings_append (.inr (by decide)), closings_append (.inl (by decide))]
    exact Nat.zero_add _
  · rfl

theorem closings_paramLine (type name : String) :
    closings (paramLine type name) = closings type + closings name := by
  rw [paramLine, closings_between (by decide), closings_append (.inl (by decide))]
  exact congrArg (· + closings name) (Nat.zero_add _)

theorem closings_memberRemark (member : OptionMember) :
    closings (memberRemark member) = total member.values := by
  rw [memberRemark]
  cases hvalues : member.values with
  | nil => exact closings_docLine _
  | cons value rest =>
    rw [List.isEmpty_cons, if_neg Bool.false_ne_true, closings_trim, closings_between (by decide),
      closings_docLine, closings_intercalate (by decide) rfl, total_map closings_literal]
    exact Nat.zero_add _

theorem closings_memberDoc (group : OptionGroup) (parameter : Parameter) :
    closings (memberDoc group (optionMemberOf parameter)) = total (parameterTexts parameter) := by
  set member := optionMemberOf parameter with hmember
  have hfront :
      closings ("options." ++ group.field ++ "." ++ member.name) = closings member.name := by
    rw [closings_between (by decide)]
    have hfield : closings ("options." ++ group.field) = 0 := by
      rw [OptionGroup.field]
      cases group.location <;> rfl
    rw [hfield]
    exact Nat.zero_add _
  have hremark :
      closings (if memberRemark member = "" then "" else " - " ++ memberRemark member) =
        total member.values := by
    rw [← closings_memberRemark]
    split
    · rename_i hempty
      rw [hempty]
    · exact (closings_append (.inl (by decide))).trans (Nat.zero_add _)
  have hhead : (if memberRemark member = "" then "" else
      " - " ++ memberRemark member).toList.head? ≠ some '/' := by
    split <;> simp
  rw [memberDoc, closings_append (.inr hhead), hremark, closings_paramLine, closings_bracketed,
    hfront, parameterTexts, total, total, Nat.add_assoc]
  rfl

end Lines

section Groups

theorem total_groupDoc (share : Share) :
    total (groupDoc share.group) = total (share.parameters.flatMap parameterTexts) := by
  have hfield : closings ("options." ++ groupField share.location) = 0 := by
    cases share.location <;> rfl
  rw [groupDoc, total, closings_paramLine, closings_bracketed, OptionGroup.field, Share.group,
    hfield, List.map_map]
  exact (Nat.zero_add _).trans (total_map_eq_flatMap (closings_memberDoc _) _)

/-- Each parameter with a location counts once, in the group of that location. -/
theorem total_groups (operation : Operation) :
    total ((groupsOf operation).flatMap groupDoc) =
      total ((located operation).flatMap parameterTexts) := by
  rw [groupsOf_eq, List.flatMap_map, total_flatMap_congr total_groupDoc, ← List.flatMap_assoc]
  exact total_perm ((perm_located operation).flatMap_right parameterTexts)

end Groups

section Block

variable (operation : Operation)

theorem total_remarks : total (remarks operation) = 0 := by
  have hsaid (text : Option String) : total (text.map docLine).toList = 0 := by
    cases text with
    | none => rfl
    | some text =>
      rw [Option.map_some, Option.toList_some, total, closings_docLine]
      rfl
  rw [remarks, total_append, hsaid]
  split
  · rfl
  · exact (Nat.zero_add _).trans (hsaid _)

theorem remarks_eq_nil_iff :
    remarks operation = [] ↔
      nonempty? operation.summary = none ∧ nonempty? operation.notes = none := by
  rw [remarks, List.append_eq_nil_iff, Option.toList_eq_nil_iff, Option.map_eq_none_iff]
  refine and_congr_right fun hsummary => ?_
  split
  · rename_i hsame
    rw [hsame]
    exact iff_of_true rfl hsummary
  · rw [Option.toList_eq_nil_iff, Option.map_eq_none_iff]

theorem groupsOf_eq_nil_iff : groupsOf operation = [] ↔ located operation = [] := by
  have hlocated := perm_located operation
  rw [groupsOf_eq, List.map_eq_nil_iff]
  constructor
  · intro hnone
    rw [hnone, List.flatMap_nil] at hlocated
    exact List.nil_perm.mp hlocated
  · intro hnone
    rw [← located, hnone, List.perm_nil, List.flatMap_eq_nil_iff] at hlocated
    refine List.eq_nil_iff_forall_not_mem.mpr fun share hshare => ?_
    exact (dealsOut_sharesOf operation).nonempty share hshare (hlocated share hshare)

theorem documented_iff :
    Documented operation ↔ ¬ (remarks operation = [] ∧ groupsOf operation = []) := by
  rw [remarks_eq_nil_iff, groupsOf_eq_nil_iff, Documented]
  tauto

theorem docLines_of_not_documented (h : ¬ Documented operation) : docLines operation = [] := by
  obtain ⟨hsaid, hgroups⟩ := not_not.mp (mt (documented_iff operation).mpr h)
  rw [docLines, hsaid, hgroups]
  rfl

/-- The lines of a block close comments as often as the texts that stand in it as they are. -/
theorem total_docLines (h : Documented operation) :
    docLines operation ≠ [] ∧ total (docLines operation) = total (bareTexts operation) := by
  have hlines : ¬ ((remarks operation).isEmpty && (groupsOf operation).isEmpty) = true := by
    rw [Bool.and_eq_true, List.isEmpty_iff, List.isEmpty_iff]
    exact (documented_iff operation).mp h
  have hempty : total (if (remarks operation).isEmpty then [] else [""]) = 0 := by
    split <;> rfl
  have hname : total [paramLine operation.optionsName
      (bracketed "options" (optionsOptional operation))] = closings operation.nickname := by
    rw [total, closings_paramLine, closings_bracketed, closings_optionsName]
    rfl
  have hreturns : total ["@returns \x7bPromise<" ++ operation.returnType ++ ">\x7d"] =
      closings operation.returnType := by
    rw [total, closings_append (.inr (by decide)), closings_append (.inl (by decide))]
    exact Nat.zero_add _
  have hbare : total (bareTexts operation) = closings operation.nickname +
      (total ((located operation).flatMap parameterTexts) + closings operation.returnType) := by
    rw [bareTexts, total, total_append]
    rfl
  rw [docLines, if_neg hlines]
  refine ⟨List.append_ne_nil_of_right_ne_nil _ (List.cons_ne_nil _ _), ?_⟩
  rw [total_append, total_append, total_append, total_append, total_remarks, hempty, hname,
    total_groups, hreturns, hbare]
  omega

theorem closings_starred (line : String) : closings (starred line) = closings line := by
  rw [starred]
  split
  · rename_i hempty
    rw [hempty]
    rfl
  · exact (closings_append (.inl (by decide))).trans (Nat.zero_add _)

theorem closings_unlines (lines : List String) : closings (unlines lines) = total lines := by
  induction lines with
  | nil => rfl
  | cons line rest ih =>
    rw [unlines_cons, closings_between (by decide), ih, total]
    rfl

/-- The block up to its last line. -/
theorem docBlock_of_documented (h : Documented operation) (path : String) :
    ∃ inside, unlines (methodOf true path operation).docBlock = inside ++ "   */\n" ∧
      closings inside = total (bareTexts operation) := by
  obtain ⟨hlines, htotal⟩ := total_docLines operation h
  refine ⟨unlines (["  /**"] ++ (docLines operation).map starred), ?_, ?_⟩
  · have hsome : ¬ (docLines operation).isEmpty = true := mt List.isEmpty_iff.mp hlines
    rw [Method.docBlock, methodOf, if_pos rfl, if_neg hsome, unlines_append]
    rfl
  · rw [closings_unlines, total_append, total_map closings_starred, ← htotal]
    exact Nat.zero_add _

theorem closings_docBlock (h : Documented operation) (path : String) :
    closings (unlines (methodOf true path operation).docBlock) =
      total (bareTexts operation) + 1 := by
  obtain ⟨inside, hblock, hinside⟩ := docBlock_of_documented operation h path
  rw [hblock, closings_append (.inr (by decide)), hinside]
  rfl

end Block

/-- The block in front of a method is there when there is something to document. Its last line
closes it, and before that line the texts that stand in it as they are close it as often as they
hold `*/`; summary, notes and descriptions never do. So the block closes at its end only just when
none of these texts holds a mark. -/
theorem block_closed_by_last_line_and_bare_texts (path : String) (operation : Operation) :
    ∃ block, methodText true path operation =
        block ++ unlines (methodOf true path operation).body ∧
      (¬ Documented operation → block = "") ∧
      (Documented operation →
        (∃ inside, block = inside ++ "   */\n" ∧ closings inside = total (bareTexts operation)) ∧
        closings block = total (bareTexts operation) + 1 ∧
        (closings block = 1 ↔
          ∀ text ∈ bareTexts operation, ¬ "*/".toList <:+: text.toList)) := by
  refine ⟨unlines (methodOf true path operation).docBlock, ?_, fun hnone => ?_, fun hdoc => ?_⟩
  · rw [methodText, Method.lines, unlines_append]
  · rw [Method.docBlock, methodOf, if_pos rfl, docLines_of_not_documented operation hnone]
    rfl
  · have hclosed := closings_docBlock operation hdoc path
    refine ⟨docBlock_of_documented operation hdoc path, hclosed, ?_⟩
    rw [hclosed, Nat.succ_inj, total_eq_zero_iff]

/-- A parameter that is restricted to media types. -/
def acceptOperation : Operation where
  method := "GET"
  nickname := "get"
  parameters := [
    { name := "accept"
      location := some .query
      enum := some ["*/*"]
      type := some "string" }]

/-- The block of a parameter whose values hold a mark closes in the line of that parameter. -/
theorem media_type_closes_block_early :
    ¬ ∀ path operation block, methodText true path operation =
        block ++ unlines (methodOf true path operation).body →
      closings block = if docLines operation = [] then 0 else 1 := by
  intro h
  have hdocumented : Documented acceptOperation := .inr (.inr (List.cons_ne_nil _ _))
  have hlines := (total_docLines acceptOperation hdocumented).1
  have hone := h "/x" acceptOperation (unlines (methodOf true "/x" acceptOperation).docBlock)
    (unlines_append _ _)
  have htwo : total (bareTexts acceptOperation) = 2 := by decide +kernel
  rw [closings_docBlock acceptOperation hdocumented, htwo, if_neg hlines] at hone
  exact absurd hone (by decide)

end ApiClientGen.DocBlocks
