import ApiClientGen.Proofs.FreeText

/-!
The members of an interface. Between the line that opens it and the brace that closes it stand its
members, a property each, in the order of the properties: a comment line when the description says
something, then the line of the member. Reading these lines gives back the name of each property,
whether it may be left out, and its type.
-/
namespace ApiClientGen

open Text

/-- The description says something: not all of it is blank. -/
def Property.isDescribed (property : Property) : Bool :=
  (property.description.getD "").toList.any fun c => !isBlank c

namespace InterfaceMembers

open Declaration DeclaredLines FreeText TextLines

def memberLine (model : Model) (name : String) (property : Property) : String :=
  "  " ++ memberKey name ++ (if name ∈ model.required then "" else "?") ++ ": " ++
    property.typeName ++ ";"

def propertyLines (model : Model) (name : String) (property : Property) : List String :=
  (if property.isDescribed then ["  // " ++ oneLine (property.description.getD "")] else []) ++
    [memberLine model name property]

def memberLines (model : Model) : List String :=
  model.properties.entries.flatMap fun entry => propertyLines model entry.1 entry.2

/-- What the line of a member says. -/
structure Reading where
  name : String
  optional : Bool
  type : String
  deriving DecidableEq, Repr

/-- The reading of a name and of what stands behind the colon. A semicolon ends the line. -/
def readType? (name : List Char) (optional : Bool) (text : List Char) : Option Reading :=
  if text.getLast? = some ';' then
    some ⟨String.ofList name, optional, String.ofList text.dropLast⟩
  else none

/-- The reading of a member line: an indent, a key, a mark when the member may be left out, a
colon and a type. -/
def readMember? : List Char → Option Reading
  | ' ' :: ' ' :: text =>
    match readMemberKey text with
    | some (name, '?' :: ':' :: ' ' :: type) => readType? name true type
    | some (name, ':' :: ' ' :: type) => readType? name false type
    | _ => none
  | _ => none

/-- The members of an interface, read from the lines between its first and its last that are no
comments. -/
def readMembers? (text : String) : Option (List Reading) :=
  ((lines text).tail.dropLast.filter fun line => !isCommentLine line).mapM readMember?

section Descriptions

/-- A text has no words exactly if it is made of blanks. -/
theorem words_eq_nil_iff (text : List Char) :
    words text = [] ↔ ∀ c ∈ text, isBlank c = true := by
  induction text with
  | nil => exact iff_of_true rfl (List.forall_mem_nil _)
  | cons c rest ih =>
    rw [List.forall_mem_cons, ← ih, words, pieces]
    by_cases hc : isBlank c = true
    · rw [if_pos hc, and_iff_right hc]
      rfl
    · rw [if_neg hc]
      refine iff_of_false ?_ (fun h => hc h.1)
      obtain ⟨head, tail, hpieces⟩ := List.exists_cons_of_ne_nil (pieces_ne_nil isBlank rest)
      rw [hpieces, List.modifyHead_cons]
      exact List.cons_ne_nil _ _

theorem oneLine_eq_empty_iff (text : String) :
    oneLine text = "" ↔ ∀ c ∈ text.toList, isBlank c = true := by
  have hempty (chars : List Char) : String.ofList chars = "" ↔ chars = [] := by
    rw [← String.toList_eq_nil_iff, String.toList_ofList]
  rw [oneLine, hempty, ← words_eq_nil_iff]
  cases hlist : words text.toList with
  | nil => exact iff_of_true rfl rfl
  | cons word rest =>
    have hmem : word ∈ words text.toList := hlist ▸ List.mem_cons_self ..
    have hword : word ≠ [] := by simpa using (List.mem_filter.mp hmem).2
    refine iff_of_false ?_ (List.cons_ne_nil _ _)
    cases rest with
    | nil => rwa [List.intercalate_singleton]
    | cons next rest => simp [List.intercalate_cons_cons]

/-- A description gives a comment if it has anything but blanks in it. -/
theorem commentLines_description (property : Property) :
    commentLines "  " (descriptionLine property.description) =
      if property.isDescribed then ["  // " ++ oneLine (property.description.getD "")]
      else [] := by
  have hline : descriptionLine property.description = oneLine (property.description.getD "") := by
    cases property.description <;> rfl
  have hdescribed :
      property.isDescribed = true ↔ ¬ oneLine (property.description.getD "") = "" := by
    rw [oneLine_eq_empty_iff, Property.isDescribed, List.any_eq_true]
    simp
  rw [commentLines, hline, if_congr hdescribed rfl rfl, ite_not]
  rfl

end Descriptions

section Lines

variable (model : Model) (name : String) (property : Property)

theorem lines_memberOf :
    (memberOf model.required name property).lines = propertyLines model name property := by
  have hmark : optionalMark (!model.required.contains name) =
      if name ∈ model.required then "" else "?" := by
    by_cases hname : name ∈ model.required <;> simp [optionalMark, hname]
  rw [Member.lines, memberOf, propertyLines, memberLine, hmark, commentLines_description]

theorem exists_head_memberKey :
    ∃ c rest, (memberKey name).toList = c :: rest ∧ c ≠ ' ' ∧ c ≠ '/' ∧ c ≠ '*' := by
  rw [memberKey]
  split
  · rename_i hname
    cases hchars : name.toList with
    | nil =>
      rw [hchars] at hname
      cases hname
    | cons c rest =>
      rw [hchars, Naming.isIdentifier, Bool.and_eq_true] at hname
      refine ⟨c, rest, rfl, ?_, ?_, ?_⟩ <;>
      · rintro rfl
        exact absurd hname.1 (by decide)
  · exact ⟨'\'', _, String.toList_ofList, by decide, by decide, by decide⟩

/-- The line of a member begins with its key, so it is no comment. -/
theorem isCommentLine_memberLine :
    isCommentLine (memberLine model name property).toList = false := by
  obtain ⟨c, rest, hkey, hspace, hslash, hstar⟩ := exists_head_memberKey name
  have hline : (memberLine model name property).toList.dropWhile (· == ' ') =
      c :: (rest ++ ((if name ∈ model.required then "" else "?") ++ ": " ++ property.typeName ++
        ";").toList) := by
    simp [memberLine, hkey, hspace]
  rw [isCommentLine, hline]
  split
  · rename_i heq
    exact absurd (List.cons.inj heq).1 hslash
  · rename_i heq
    exact absurd (List.cons.inj heq).1 hslash
  · rename_i heq
    exact absurd (List.cons.inj heq).1 hstar
  · rfl

/-- A member is read back from its line: the key as far as it goes, the mark of an option, the
type. -/
theorem readMember?_memberLine :
    readMember? (memberLine model name property).toList =
      some ⟨name, decide (name ∉ model.required), property.typeName⟩ := by
  have htype (optional : Bool) :
    readType? name.toList optional (property.typeName.toList ++ [';']) =
      some ⟨name, optional, property.typeName⟩ := by
    rw [readType?, if_pos List.getLast?_concat, List.dropLast_concat, String.ofList_toList,
      String.ofList_toList]
  by_cases hname : name ∈ model.required
  · have hline : (memberLine model name property).toList = ' ' :: ' ' ::
        ((memberKey name).toList ++ ':' :: ' ' :: (property.typeName.toList ++ [';'])) := by
      simp [memberLine, hname]
    rw [hline, readMember?, readMemberKey_append name (by decide)]
    simpa [hname] using htype false
  · have hline : (memberLine model name property).toList = ' ' :: ' ' ::
        ((memberKey name).toList ++ '?' :: ':' :: ' ' ::
          (property.typeName.toList ++ [';'])) := by
      simp [memberLine, hname]
    rw [hline, readMember?, readMemberKey_append name (by decide)]
    simpa [hname] using htype true

/-- Of the lines of a property those of its description are comments and the last one is not. -/
theorem code_propertyLines :
    code (propertyLines model name property) = [memberLine model name property] := by
  have hmember : code [memberLine model name property] = [memberLine model name property] := by
    rw [code, List.filter_cons_of_pos, List.filter_nil]
    rw [isCommentLine_memberLine]
    rfl
  rw [propertyLines, ← commentLines_description, code_append, code_commentLines (by simp),
    hmember, List.nil_append]

end Lines

section Interface

variable (model : Model)

theorem lines_interfaceOf :
    (interfaceOf false model).lines =
      ["export interface " ++ model.interfaceName ++ " \x7b"] ++ memberLines model ++
        ["\x7d"] := by
  have hmembers : (interfaceOf false model).members.flatMap Member.lines = memberLines model := by
    rw [interfaceOf, List.flatMap_map]
    simp only [lines_memberOf]
    rfl
  rw [Interface.lines, Interface.body, hmembers]
  rfl

/-- What is left without comments is one line for each property, in order. -/
theorem code_memberLines :
    code (memberLines model) =
      model.properties.entries.map fun entry => memberLine model entry.1 entry.2 := by
  rw [memberLines, code_flatMap]
  simp only [code_propertyLines]
  exact List.flatMap_pure_eq_map ..

end Interface

/-- The lines of an interface are the one that opens it, those of its properties in order, and the
brace that closes it. Reading them gives the properties back, each once. -/
theorem interface_lists_properties (model : Model) (h : AllSingle model.shownTexts) :
    lines (interfaceText false model) =
        (["export interface " ++ model.interfaceName ++ " \x7b"] ++ memberLines model ++
          ["\x7d"]).map String.toList ∧
      readMembers? (interfaceText false model) =
        some (model.properties.entries.map fun entry =>
          ⟨entry.1, decide (entry.1 ∉ model.required), entry.2.typeName⟩) ∧
      model.properties.keys.Nodup := by
  have hlines : lines (interfaceText false model) =
      (["export interface " ++ model.interfaceName ++ " \x7b"] ++ memberLines model ++
        ["\x7d"]).map String.toList := by
    rw [interfaceText, lines_unlines (allSingle_interface h false), lines_interfaceOf]
  refine ⟨hlines, ?_, model.properties.nodup⟩
  have hinside : (lines (interfaceText false model)).tail.dropLast =
      (memberLines model).map String.toList := by
    rw [hlines]
    simp
  have hcode : ((memberLines model).map String.toList).filter (fun line => !isCommentLine line) =
      (code (memberLines model)).map String.toList :=
    List.filter_map ..
  rw [readMembers?, hinside, hcode, code_memberLines, List.map_map, List.mapM_map]
  simp only [Function.comp_def, readMember?_memberLine]
  exact List.mapM_pure ..

/-- A model whose descriptions, names and required names are unlike what a schema should have. -/
def unrulyModel : Model where
  id := some "Pet"
  required := ["it's", "it's", "gone"]
  properties := ((OrderedMap.empty.put "it's"
      { type := some "string", description := some "first;\n\x7d\n  second: string;" }).put
      "a?: b;"
      { type := some "array", items := some { ref := some "Tag" },
        description := some " \n\t" }).put ""
      { type := some "*/;", description := some "  //  " }

theorem unruly_interface_lists_properties :
    AllSingle unrulyModel.shownTexts ∧
      readMembers? (interfaceText false unrulyModel) =
        some [⟨"it's", false, "string"⟩, ⟨"a?: b;", true, "ITag[]"⟩, ⟨"", true, "*/;"⟩] := by
  have htexts : AllSingle unrulyModel.shownTexts := by decide +kernel
  refine ⟨htexts, ?_⟩
  rw [(interface_lists_properties unrulyModel htexts).2.1]
  decide +kernel

end InterfaceMembers

end ApiClientGen
