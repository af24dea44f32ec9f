import ApiClientGen.Proofs.OutputModes
import ApiClientGen.Proofs.ParameterGroups

/-!
Where the literals of the generated files stand, and when one of them is broken. Names that are no
identifiers and the values of enumerations are written as literals: in the keys of members, in
types, and in the lists of the documentation. A literal escapes quotes and backslashes only, so
that it has the line breaks of its value, and is one that a script may hold exactly if its value
has none.
-/
namespace ApiClientGen.LiteralLines

open Declaration OutputModes ParameterGroups Text

/-- The literals of some values stand in a text, one behind the other. -/
inductive Quotes : String → List String → Prop
  | nothing (text : String) : Quotes text []
  | next (front value : String) {rest : String} {values : List String} :
    Quotes rest values → Quotes (front ++ literal value ++ rest) (value :: values)

def Unbroken (text : String) : Prop := '\n' ∉ text.toList ∧ '\r' ∉ text.toList

instance (text : String) : Decidable (Unbroken text) := inferInstanceAs (Decidable (_ ∧ _))

/-- A text that a script may hold as a literal: it opens, closes at its end, and is unbroken. -/
def LegalLiteral (text : String) : Prop :=
  (∃ value, readLiteral text.toList = some (value, [])) ∧ Unbroken text

/-- A name whose key is a literal; nothing when the key is the name. -/
def quotedKey (name : String) : List String :=
  if Naming.isIdentifier name.toList then [] else [name]

def enumerated (parameter : Parameter) : List String := parameter.enum.getD []

def modelValues (model : Model) : List String := model.properties.keys.flatMap quotedKey

def optionsValues (operation : Operation) : List String :=
  (sharesOf operation).flatMap fun share => share.parameters.flatMap fun parameter =>
    quotedKey parameter.name ++ enumerated parameter

/-- The values that the documentation of an operation shows as literals: those of an enumeration
in the type and once more in the list behind the description. -/
def docValues (operation : Operation) : List String :=
  (sharesOf operation).flatMap fun share => share.parameters.flatMap fun parameter =>
    enumerated parameter ++ enumerated parameter

def classValues (split docs : Bool) (resource : Resource) : List String :=
  (if split then []
  else resource.models.values.flatMap modelValues ++ resource.operations.flatMap optionsValues) ++
    if docs then resource.operations.flatMap docValues else []

namespace Quotes

variable {text first second : String} {values more : List String}

theorem behind (h : Quotes text values) (front : String) : Quotes (front ++ text) values := by
  cases h with
  | nothing => exact nothing _
  | next start value hrest =>
    rw [← String.append_assoc, ← String.append_assoc]
    exact next (front ++ start) value hrest

theorem append (h : Quotes first values) (hmore : Quotes second more) :
    Quotes (first ++ second) (values ++ more) := by
  induction h with
  | nothing text => exact hmore.behind text
  | next front value _ ih =>
    rw [String.append_assoc]
    exact next front value ih

theorem before (h : Quotes text values) (back : String) : Quotes (text ++ back) values := by
  have hboth := h.append (nothing back)
  rwa [List.append_nil] at hboth

end Quotes

section Lists

theorem quotes_literal (value : String) : Quotes (literal value) [value] := by
  have hone := Quotes.next "" value (Quotes.nothing "")
  rwa [String.empty_append, String.append_empty] at hone

theorem quotes_intercalate (separator : String) (values : List String) :
    Quotes (String.intercalate separator (values.map literal)) values := by
  induction values with
  | nil => exact .nothing _
  | cons value rest ih =>
    cases rest with
    | nil => exact quotes_literal value
    | cons next rest =>
      rw [List.map_cons, List.map_cons, String.intercalate_cons_cons, String.append_assoc]
      exact (quotes_literal value).append (ih.behind separator)

theorem quotes_join {α : Type} {text : α → String} {values : α → List String}
    (h : ∀ item, Quotes (text item) (values item)) (items : List α) :
    Quotes (String.join (items.map text)) (items.flatMap values) := by
  induction items with
  | nil => exact .nothing _
  | cons item rest ih =>
    rw [List.map_cons, String.join_cons, List.flatMap_cons]
    exact (h item).append ih

theorem quotes_unlines {α : Type} {lines : α → List String} {values : α → List String}
    (h : ∀ item, Quotes (unlines (lines item)) (values item)) (items : List α) :
    Quotes (unlines (items.flatMap lines)) (items.flatMap values) := by
  induction items with
  | nil => exact .nothing _
  | cons item rest ih =>
    rw [List.flatMap_cons, unlines_append, List.flatMap_cons]
    exact (h item).append ih

theorem quotes_line {line : String} {values : List String} (h : Quotes line values) :
    Quotes (unlines [line]) values := by
  rw [unlines_cons]
  exact (h.before "\n").before _

end Lists

section Declarations

theorem quotes_memberKey (name : String) : Quotes (memberKey name) (quotedKey name) := by
  rw [memberKey, quotedKey]
  split
  · exact .nothing _
  · exact quotes_literal name

theorem quotes_typeName (parameter : Parameter) :
    Quotes parameter.typeName (enumerated parameter) := by
  rw [Parameter.typeName, enumerated]
  split
  · rename_i henum
    rw [henum]
    exact quotes_intercalate " | " _
  · rename_i hnone
    have hempty : parameter.enum.getD [] = [] := by
      cases henum : parameter.enum with
      | none => rfl
      | some values =>
        cases values with
        | nil => rfl
        | cons value rest => exact absurd henum (hnone value rest)
    rw [hempty]
    exact .nothing _

theorem quotes_member (required : List String) (entry : String × Property) :
    Quotes (unlines (memberOf required entry.1 entry.2).lines) (quotedKey entry.1) := by
  rw [Member.lines, unlines_append]
  refine (quotes_line ?_).behind _
  simp only [memberOf, String.append_assoc]
  exact ((quotes_memberKey entry.1).before _).behind "  "

theorem quotes_optionMember (parameter : Parameter) :
    Quotes (unlines (optionMemberOf parameter).lines)
      (quotedKey parameter.name ++ enumerated parameter) := by
  rw [OptionMember.lines, unlines_append]
  refine (quotes_line ?_).behind _
  simp only [optionMemberOf, String.append_assoc]
  have htype := ((quotes_typeName parameter).before ";").behind ": "
  exact ((quotes_memberKey parameter.name).append (htype.behind _)).behind "    "

theorem quotes_interface (model : Model) :
    Quotes (interfaceText false model) (modelValues model) := by
  have hvalues : modelValues model =
      model.properties.entries.flatMap fun entry => quotedKey entry.1 := by
    rw [modelValues, OrderedMap.keys, List.flatMap_map]
  have hmembers : Quotes (unlines ((interfaceOf false model).members.flatMap Member.lines))
      (modelValues model) := by
    rw [hvalues, interfaceOf, List.flatMap_map]
    exact quotes_unlines (quotes_member model.required) _
  rw [interfaceText, Interface.lines, Interface.body, unlines_append, unlines_append,
    unlines_append]
  exact ((hmembers.behind _).before _).behind _

theorem quotes_group (share : Share) :
    Quotes (unlines share.group.lines) (share.parameters.flatMap fun parameter =>
      quotedKey parameter.name ++ enumerated parameter) := by
  have hmembers : Quotes (unlines (share.group.members.flatMap OptionMember.lines))
      (share.parameters.flatMap fun parameter =>
        quotedKey parameter.name ++ enumerated parameter) := by
    rw [Share.group, List.flatMap_map]
    exact quotes_unlines quotes_optionMember share.parameters
  rw [OptionGroup.lines, unlines_append, unlines_append]
  exact (hmembers.behind _).before _

theorem quotes_options (operation : Operation) :
    Quotes (optionsText false operation) (optionsValues operation) := by
  have hgroups : Quotes (unlines ((optionsOf false operation).groups.flatMap OptionGroup.lines))
      (optionsValues operation) := by
    rw [optionsOf, groupsOf_eq, List.flatMap_map]
    exact quotes_unlines quotes_group (sharesOf operation)
  rw [optionsText, Options.lines, Options.body, unlines_append, unlines_append, unlines_append]
  exact ((hgroups.behind _).before _).behind _

end Declarations

section Documentation

theorem dropBlanks_append {front back : List Char}
    (h : ∀ c, back.head? = some c → isBlank c = false) :
    (front ++ back).dropWhile isBlank = front.dropWhile isBlank ++ back := by
  induction front with
  | nil =>
    cases back with
    | nil => rfl
    | cons c back =>
      rw [List.nil_append, List.dropWhile_cons, h c rfl]
      rfl
  | cons d front ih =>
    rw [List.cons_append, List.dropWhile_cons, List.dropWhile_cons]
    split
    · exact ih
    · rfl

/-- A text that begins and ends with characters that are not blank keeps them at the end of a text
from which the blanks at both ends are taken. -/
theorem trim_append {front back : List Char}
    (hhead : ∀ c, back.head? = some c → isBlank c = false)
    (hlast : ∀ c, back.getLast? = some c → isBlank c = false) (hsome : back ≠ []) :
    trim (front ++ back) = front.dropWhile isBlank ++ back := by
  rw [trim, trimBy, dropBlanks_append hhead, List.reverse_append]
  obtain ⟨c, rest, hback⟩ := List.exists_cons_of_ne_nil (List.reverse_ne_nil_iff.mpr hsome)
  have hc : isBlank c = false := by
    apply hlast
    rw [← List.head?_reverse, hback]
    rfl
  rw [hback, List.cons_append, List.dropWhile_cons, hc, if_neg Bool.false_ne_true,
    ← List.cons_append, ← hback, List.reverse_append, List.reverse_reverse, List.reverse_reverse]

theorem getLast?_literals {values : List String} (h : values ≠ []) (separator : String) :
    (String.intercalate separator (values.map literal)).toList.getLast? = some '\'' := by
  induction values with
  | nil => exact absurd rfl h
  | cons value rest ih =>
    cases rest with
    | nil => exact (congrArg List.getLast? String.toList_ofList).trans List.getLast?_concat
    | cons next rest =>
      rw [List.map_cons, List.map_cons, String.intercalate_cons_cons, String.toList_append,
        List.getLast?_append, ← List.map_cons, ih (List.cons_ne_nil _ _), Option.some_or]

/-- The list behind a description loses nothing with the blanks at the ends of the remark. -/
theorem quotes_memberRemark (parameter : Parameter) :
    Quotes (memberRemark (optionMemberOf parameter)) (enumerated parameter) := by
  have hvalues : (optionMemberOf parameter).values = enumerated parameter := rfl
  rw [memberRemark, hvalues]
  by_cases hnone : enumerated parameter = []
  · rw [hnone]
    exact .nothing _
  · set said := docLine (optionMemberOf parameter).comment
    set list := String.intercalate ", " ((enumerated parameter).map literal) with hlist
    have htext : (said ++ " One of: " ++ list).toList =
        (said ++ " ").toList ++ ("One of: " ++ list).toList := by
      simp
    have hhead : ∀ c, ("One of: " ++ list).toList.head? = some c → isBlank c = false := by
      intro c hc
      obtain rfl : 'O' = c := by simpa using hc
      decide
    have hlast : ∀ c, ("One of: " ++ list).toList.getLast? = some c → isBlank c = false := by
      intro c hc
      rw [String.toList_append, List.getLast?_append, hlist, getLast?_literals hnone] at hc
      obtain rfl : '\'' = c := by simpa using hc
      decide
    rw [if_neg (mt List.isEmpty_iff.mp hnone)]
    change Quotes (String.ofList (trim (said ++ " One of: " ++ list).toList)) _
    rw [htext, trim_append hhead hlast (by simp), String.ofList_append, String.ofList_toList]
    exact ((quotes_intercalate ", " (enumerated parameter)).behind "One of: ").behind _

theorem quotes_memberDoc (group : OptionGroup) (parameter : Parameter) :
    Quotes (memberDoc group (optionMemberOf parameter))
      (enumerated parameter ++ enumerated parameter) := by
  have hremark := quotes_memberRemark parameter
  rw [memberDoc, paramLine]
  refine ((((quotes_typeName parameter).behind _).before _).before _).append ?_
  split
  · rename_i hempty
    rwa [hempty] at hremark
  · exact hremark.behind " - "

theorem quotes_starred {line : String} {values : List String} (h : Quotes line values) :
    Quotes (unlines [starred line]) values := by
  apply quotes_line
  rw [starred]
  split
  · rename_i hempty
    rw [hempty] at h
    exact h.behind "   *"
  · exact h.behind "   * "

theorem quotes_groupDoc (share : Share) :
    Quotes (unlines ((groupDoc share.group).map starred))
      (share.parameters.flatMap fun parameter =>
        enumerated parameter ++ enumerated parameter) := by
  have hmember : ∀ parameter, Quotes
      (unlines [starred (memberDoc share.group (optionMemberOf parameter))])
      (enumerated parameter ++ enumerated parameter) :=
    fun parameter => quotes_starred (quotes_memberDoc share.group parameter)
  have hmembers : (share.group.members.map (memberDoc share.group)).map starred =
      share.parameters.flatMap fun parameter =>
        [starred (memberDoc share.group (optionMemberOf parameter))] := by
    rw [Share.group, List.map_map, List.map_map]
    exact (List.flatMap_pure_eq_map ..).symm
  rw [groupDoc, List.map_cons, unlines_cons, hmembers]
  exact (quotes_unlines hmember share.parameters).behind _

theorem quotes_docLines (operation : Operation) :
    Quotes (unlines ((docLines operation).map starred)) (docValues operation) := by
  rw [docLines]
  split
  · rename_i hnone
    rw [Bool.and_eq_true, List.isEmpty_iff, List.isEmpty_iff, groupsOf_eq,
      List.map_eq_nil_iff] at hnone
    rw [docValues, hnone.2]
    exact .nothing _
  · have hgroups : Quotes (unlines (((groupsOf operation).flatMap groupDoc).map starred))
        (docValues operation) := by
      rw [groupsOf_eq, List.map_flatMap, List.flatMap_map]
      exact quotes_unlines quotes_groupDoc (sharesOf operation)
    simp only [List.map_append, unlines_append]
    exact (hgroups.behind _).before _

theorem quotes_docText (operation : Operation) :
    Quotes (docText operation) (docValues operation) := by
  have hlines := quotes_docLines operation
  have hdoc : (methodOf true "" operation).doc = docLines operation := rfl
  rw [docText, Method.docBlock, hdoc]
  split
  · rename_i hnone
    rwa [List.isEmpty_iff.mp hnone] at hlines
  · rw [unlines_append, unlines_append]
    exact (hlines.behind _).before _

theorem quotes_method (docs : Bool) (path : String) (operation : Operation) :
    Quotes (methodText docs path operation) (if docs then docValues operation else []) := by
  rw [methodText_documented]
  apply Quotes.before
  cases docs with
  | false => exact .nothing _
  | true => exact quotes_docText operation

end Documentation

section Files

variable (split docs : Bool) (name : String) (resource : Resource)

theorem quotes_classPart :
    Quotes (classPart docs name resource)
      (if docs then resource.operations.flatMap docValues else []) := by
  have hvalues : (if docs then resource.operations.flatMap docValues else []) =
      resource.targets.flatMap fun target => if docs then docValues target.2 else [] := by
    cases docs with
    | false => exact (List.flatMap_eq_nil_iff.mpr fun _ _ => rfl).symm
    | true => exact List.flatMap_map ..
  have htarget : ∀ target : String × Operation,
      Quotes ("\n" ++ methodText docs target.1 target.2)
        (if docs then docValues target.2 else []) :=
    fun target => (quotes_method docs target.1 target.2).behind "\n"
  rw [classPart, inRow, List.map_map, hvalues]
  exact ((quotes_join htarget resource.targets).behind _).before _

theorem quotes_inlineFront :
    Quotes (inlineFront resource)
      (resource.models.values.flatMap modelValues ++
        resource.operations.flatMap optionsValues) := by
  have hmodel : ∀ model, Quotes ("\n" ++ interfaceText false model) (modelValues model) :=
    fun model => (quotes_interface model).behind "\n"
  have hoptions : ∀ operation, Quotes ("\n" ++ optionsText false operation)
      (optionsValues operation) :=
    fun operation => (quotes_options operation).behind "\n"
  rw [inlineFront, inRow_append, inRow, inRow, List.map_map, List.map_map]
  exact ((quotes_join hmodel _).append (quotes_join hoptions _)).behind _

/-- The literals of a class file. -/
theorem quotes_class :
    Quotes (classText split docs name resource) (classValues split docs resource) := by
  cases split with
  | false =>
    rw [classText_inline]
    exact (quotes_inlineFront resource).append (quotes_classPart docs name resource)
  | true =>
    rw [classText_imported]
    exact (quotes_classPart docs name resource).behind _

end Files

section Breaks

/-- Only quotes and backslashes are written in another way than they are. -/
theorem count_literal {c : Char} (hquote : c ≠ '\'') (hbackslash : c ≠ '\\') (value : String) :
    (literal value).toList.count c = value.toList.count c := by
  have hchars : (value.toList.flatMap literalChar).count c = value.toList.count c := by
    induction value.toList with
    | nil => rfl
    | cons d rest ih =>
      rw [List.flatMap_cons, List.count_append, ih, List.count_cons, literalChar]
      split
      · rw [List.count_cons_of_ne (Ne.symm hbackslash), List.count_singleton, Nat.add_comm]
      · rw [List.count_singleton, Nat.add_comm]
  rw [literal, String.toList_ofList, List.cons_append, List.count_cons_of_ne (Ne.symm hquote),
    List.count_append, hchars, List.count_cons_of_ne (Ne.symm hquote), List.count_nil,
    Nat.add_zero]

theorem unbroken_literal_iff (value : String) : Unbroken (literal value) ↔ Unbroken value := by
  have hmem {c : Char} (hquote : c ≠ '\'') (hbackslash : c ≠ '\\') :
      c ∈ (literal value).toList ↔ c ∈ value.toList := by
    rw [← List.count_pos_iff, count_literal hquote hbackslash, List.count_pos_iff]
  rw [Unbroken, Unbroken, hmem (by decide) (by decide), hmem (by decide) (by decide)]

theorem legalLiteral_literal_iff (value : String) :
    LegalLiteral (literal value) ↔ Unbroken value := by
  have hread : readLiteral (literal value).toList = some (value.toList, []) := by
    rw [literal, String.toList_ofList]
    exact readLiteralBody_append value.toList []
  rw [LegalLiteral, unbroken_literal_iff]
  exact and_iff_right ⟨value.toList, hread⟩

end Breaks

/-- Neither the name of a property, nor the name of a parameter in a group, nor a value of its
enumeration holds a line break. -/
structure BreakFree (resource : Resource) : Prop where
  properties : ∀ model ∈ resource.models.values, ∀ name ∈ model.properties.keys, Unbroken name
  parameters : ∀ operation ∈ resource.operations, ∀ parameter ∈ operation.parameters,
    parameter.location.isSome →
      Unbroken parameter.name ∧ ∀ value ∈ enumerated parameter, Unbroken value

section Records

/-- What an identifier is made of breaks no line. -/
theorem unbroken_of_isIdentifier {name : String} (h : Naming.isIdentifier name.toList = true) :
    Unbroken name := by
  have hchars : ∀ c ∈ name.toList, Naming.isIdentifierChar c = true := by
    cases hname : name.toList with
    | nil => exact List.forall_mem_nil _
    | cons c rest =>
      rw [hname, Naming.isIdentifier, Bool.and_eq_true, List.all_eq_true] at h
      exact List.forall_mem_cons.mpr ⟨isIdentifierChar_of_isIdentifierStart h.1, h.2⟩
  exact ⟨fun hmem => absurd (hchars _ hmem) (by decide),
    fun hmem => absurd (hchars _ hmem) (by decide)⟩

theorem forall_quotedKey_iff (name : String) :
    (∀ value ∈ quotedKey name, Unbroken value) ↔ Unbroken name := by
  rw [quotedKey]
  split
  · rename_i hname
    exact iff_of_true (List.forall_mem_nil _) (unbroken_of_isIdentifier hname)
  · exact List.forall_mem_singleton

theorem forall_modelValues_iff (model : Model) :
    (∀ value ∈ modelValues model, Unbroken value) ↔
      ∀ name ∈ model.properties.keys, Unbroken name := by
  rw [modelValues, List.forall_mem_flatMap]
  simp only [forall_quotedKey_iff]

theorem forall_optionsValues_iff (operation : Operation) :
    (∀ value ∈ optionsValues operation, Unbroken value) ↔
      ∀ parameter ∈ operation.parameters, parameter.location.isSome →
        Unbroken parameter.name ∧ ∀ value ∈ enumerated parameter, Unbroken value := by
  have hvalues : optionsValues operation =
      ((sharesOf operation).flatMap Share.parameters).flatMap fun parameter =>
        quotedKey parameter.name ++ enumerated parameter := by
    rw [optionsValues, List.flatMap_assoc]
  rw [hvalues, List.forall_mem_flatMap]
  simp only [(perm_located operation).mem_iff, List.mem_filter, List.forall_mem_append,
    forall_quotedKey_iff, and_imp]

/-- Documentation shows no values but those of the options. -/
theorem docValues_subset (operation : Operation) :
    docValues operation ⊆ optionsValues operation := by
  intro value hvalue
  simp only [docValues, optionsValues, List.mem_flatMap, List.mem_append, or_self] at hvalue ⊢
  obtain ⟨share, hshare, parameter, hparameter, hmem⟩ := hvalue
  exact ⟨share, hshare, parameter, hparameter, .inr hmem⟩

theorem forall_classValues_iff (docs : Bool) (resource : Resource) :
    (∀ value ∈ classValues false docs resource, Unbroken value) ↔ BreakFree resource := by
  rw [classValues, if_neg Bool.false_ne_true, List.forall_mem_append, List.forall_mem_append,
    List.forall_mem_flatMap, List.forall_mem_flatMap]
  simp only [forall_modelValues_iff]
  constructor
  · rintro ⟨⟨hmodels, hoptions⟩, -⟩
    exact ⟨hmodels, fun operation hoperation =>
      (forall_optionsValues_iff operation).mp (hoptions operation hoperation)⟩
  · rintro ⟨hmodels, hparameters⟩
    have hoptions : ∀ operation ∈ resource.operations, ∀ value ∈ optionsValues operation,
        Unbroken value :=
      fun operation hoperation =>
        (forall_optionsValues_iff operation).mpr (hparameters operation hoperation)
    refine ⟨⟨hmodels, hoptions⟩, ?_⟩
    cases docs with
    | false => exact List.forall_mem_nil _
    | true =>
      rw [if_pos rfl, List.forall_mem_flatMap]
      exact fun operation hoperation value hvalue =>
        hoptions operation hoperation value (docValues_subset operation hvalue)

end Records

/-- Class files, interfaces and options show, one behind the other, the literals of the names that
are no identifiers and of the values of enumerations. A literal has the line breaks of its value,
and a script may hold it exactly if there are none; so it may hold all literals of a resource
exactly if the names of its properties and parameters and the values of its enumerations are free
of them. -/
theorem literals_break_as_values_do (docs : Bool) (resource : Resource) :
    (∀ split name,
      Quotes (classText split docs name resource) (classValues split docs resource)) ∧
    (∀ split model, Quotes (interfaceText split model) (modelValues model)) ∧
    (∀ split operation, Quotes (optionsText split operation) (optionsValues operation)) ∧
    (∀ value, (literal value).toList.count '\n' = value.toList.count '\n' ∧
      (literal value).toList.count '\r' = value.toList.count '\r' ∧
      (LegalLiteral (literal value) ↔ Unbroken value)) ∧
    ((∀ value ∈ classValues false docs resource, LegalLiteral (literal value)) ↔
      BreakFree resource) := by
  refine ⟨fun split name => quotes_class split docs name resource, fun split model => ?_,
    fun split operation => ?_, fun value => ⟨?_, ?_, ?_⟩, ?_⟩
  · cases split with
    | false => exact quotes_interface model
    | true =>
      rw [interfaceText_split]
      exact (quotes_interface model).behind _
  · cases split with
    | false => exact quotes_options operation
    | true =>
      rw [optionsText_split]
      exact (quotes_options operation).behind _
  · exact count_literal (by decide) (by decide) value
  · exact count_literal (by decide) (by decide) value
  · exact legalLiteral_literal_iff value
  · simp only [legalLiteral_literal_iff]
    exact forall_classValues_iff docs resource

/-- An operation with a parameter that is restricted to a value of two lines. -/
def twoLineOperation : Operation where
  method := "GET"
  nickname := "list"
  parameters := [{ name := "sort", location := some .query, enum := some ["first\nlast"] }]

/-- The literal of the value ends on another line than the one on which it begins. -/
theorem two_line_value_breaks_literal :
    optionsText false twoLineOperation =
        "export interface IListOptions extends IOperationOptions \x7b\n  query?: \x7b\n" ++
          "    sort?: 'first\nlast';\n  \x7d;\n\x7d\n" ∧
      ¬ ∀ operation, ∀ value ∈ optionsValues operation, Unbroken (literal value) := by
  refine ⟨by decide +kernel, fun h => ?_⟩
  exact absurd (h twoLineOperation "first\nlast" (by decide)) (by decide)

end ApiClientGen.LiteralLines
