import ApiClientGen.Declaration.ClientClass
import ApiClientGen.Proofs.TextLines
import ApiClientGen.Proofs.TypeForm

/-!
The lines of declarations. Free text is put on one line before it is shown, and everything else
that is shown comes from the other texts of a record. So if none of those holds a line feed, the
lines of which a file is made are the lines that it has.
-/
namespace ApiClientGen

/-- The texts of a property other than descriptions. -/
def Property.texts : Property → List String
  | ⟨type, ref, some inner, _, format, enum⟩ =>
    type.toList ++ ref.toList ++ format.toList ++ enum.getD [] ++ inner.texts
  | ⟨type, ref, none, _, format, enum⟩ =>
    type.toList ++ ref.toList ++ format.toList ++ enum.getD []

def Property.typeTexts : Property → List String
  | ⟨type, ref, some inner, _, _, _⟩ => type.toList ++ ref.toList ++ inner.typeTexts
  | ⟨type, ref, none, _, _, _⟩ => type.toList ++ ref.toList

def Model.texts (model : Model) : List String :=
  model.id.toList ++ model.required ++ model.properties.keys ++
    model.properties.values.flatMap Property.texts

def Model.shownTexts (model : Model) : List String :=
  model.id.toList ++ model.properties.keys ++ model.properties.values.flatMap Property.typeTexts

def Parameter.texts (parameter : Parameter) : List String :=
  parameter.name :: parameter.enum.getD [] ++ parameter.type.toList ++ parameter.format.toList

def Operation.texts (operation : Operation) : List String :=
  operation.method :: operation.nickname :: operation.type.toList ++
    operation.items.toList.flatMap Property.texts ++ operation.parameters.flatMap Parameter.texts

def Api.texts (api : Api) : List String :=
  api.path :: api.operations.flatMap Operation.texts

/-- The texts of a resource other than descriptions, summaries and notes. -/
def Resource.texts (resource : Resource) : List String :=
  resource.apiVersion.toList ++ resource.swaggerVersion.toList ++ [resource.basePath] ++
    resource.resourcePath.toList ++ resource.models.keys ++
    resource.models.values.flatMap Model.texts ++ resource.apis.flatMap Api.texts

/-- What a type is built from is among the texts of its property; the descriptions are not. -/
theorem Property.typeTexts_subset (property : Property) :
    property.typeTexts ⊆ property.texts := by
  fun_induction Property.typeTexts property with
  | case1 type ref inner description format enum ih =>
    rw [Property.texts]
    intro text htext
    simp only [List.mem_append] at htext ⊢
    exact htext.imp (.inl ∘ .inl) (ih ·)
  | case2 type ref description format enum =>
    rw [Property.texts]
    intro text htext
    exact List.mem_append_left _ (List.mem_append_left _ htext)

theorem Model.shownTexts_subset (model : Model) : model.shownTexts ⊆ model.texts := by
  intro text htext
  simp only [Model.shownTexts, Model.texts, List.mem_append, List.mem_flatMap] at htext ⊢
  rcases htext with (hid | hkey) | ⟨property, hproperty, htype⟩
  · exact .inl (.inl (.inl hid))
  · exact .inl (.inr hkey)
  · exact .inr ⟨property, hproperty, Property.typeTexts_subset property htype⟩

namespace DeclaredLines

open Declaration Text TextLines

/-- A name is one line as soon as the id in it is. -/
theorem singleLine_interfaceName {id : Option String} (h : AllSingle id.toList) :
    SingleLine (Naming.interfaceName id) := by
  rw [Naming.interfaceName]
  split
  · rename_i found hfound
    have hid := ((nonempty?_eq_some_iff id found).mp hfound).1
    rw [hid] at h
    simp only [singleLine_append_iff]
    exact ⟨by decide, h found (List.mem_singleton_self found)⟩
  · decide

theorem singleLine_tagType {tag : Option String} (h : AllSingle tag.toList) :
    SingleLine (Naming.tagType tag) := by
  rw [Naming.tagType]
  split
  · decide
  · rename_i found _ hfound
    have htag := ((nonempty?_eq_some_iff tag found).mp hfound).1
    rw [htag] at h
    exact h found (List.mem_singleton_self found)
  · decide

theorem allSingle_ref_and_type {property : Property} (h : AllSingle property.typeTexts) :
    AllSingle property.ref.toList ∧ AllSingle property.type.toList := by
  obtain ⟨type, ref, items, description, format, enum⟩ := property
  cases items <;>
    simp only [Property.typeTexts, allSingle_append_iff] at h ⊢ <;> tauto

/-- The type of a property is one line: its names are, and the marks of arrays add no line
feed. -/
theorem singleLine_property {property : Property} (h : AllSingle property.typeTexts) :
    SingleLine property.typeName := by
  fun_induction Property.typeName property with
  | case1 ref inner description format enum ih =>
    rw [Property.typeTexts, allSingle_append_iff] at h
    rw [Naming.arrayOf, singleLine_append_iff]
    exact ⟨ih h.2, by decide⟩
  | case2 property hleaf id hid =>
    have href := ((nonempty?_eq_some_iff _ _).mp hid).1
    rw [← href]
    exact singleLine_interfaceName (allSingle_ref_and_type h).1
  | case3 property hleaf hid => exact singleLine_tagType (allSingle_ref_and_type h).2

/-- The type of a parameter is one line, a union of its values included. -/
theorem singleLine_parameter {parameter : Parameter} (h : AllSingle parameter.texts) :
    SingleLine parameter.typeName := by
  simp only [Parameter.texts, List.cons_append, allSingle_cons_iff, allSingle_append_iff] at h
  obtain ⟨-, ⟨henum, htype⟩, -⟩ := h
  rw [Parameter.typeName]
  split
  · rename_i value rest hvalues
    rw [hvalues] at henum
    exact singleLine_literalUnion henum
  · split
    · exact singleLine_interfaceName htype
    · exact singleLine_tagType htype

theorem singleLine_optionsName {operation : Operation} (h : AllSingle operation.texts) :
    SingleLine operation.optionsName := by
  simp only [Operation.texts, List.cons_append, allSingle_cons_iff] at h
  rw [Operation.optionsName, singleLine_append_iff, singleLine_append_iff]
  exact ⟨⟨by decide, singleLine_upperFirst h.2.1⟩, by decide⟩

theorem singleLine_returnType {operation : Operation} (h : AllSingle operation.texts) :
    SingleLine operation.returnType := by
  simp only [Operation.texts, List.cons_append, allSingle_cons_iff, allSingle_append_iff] at h
  obtain ⟨-, -, ⟨htype, hitems⟩, -⟩ := h
  rw [Operation.returnType]
  split
  · split
    · rename_i inner hinner
      rw [hinner, Option.toList_some, List.flatMap_singleton] at hitems
      rw [Naming.arrayOf, singleLine_append_iff]
      exact ⟨singleLine_property (hitems.mono (Property.typeTexts_subset inner)), by decide⟩
    · decide
  · split
    · rename_i tag htag
      rw [htag] at htype
      split
      · exact singleLine_tagType htype
      · exact singleLine_interfaceName htype
    · decide

theorem allSingle_importLines {names : List String} (h : AllSingle names) {front : String}
    (hfront : SingleLine front) :
    AllSingle (names.map fun name => importLine name (front ++ name)) := by
  rw [allSingle_map_iff]
  intro name hname
  have hsingle := h name hname
  simp only [importLine, singleLine_append_iff]
  exact ⟨⟨⟨⟨by decide, hsingle⟩, by decide⟩, hfront, hsingle⟩, by decide⟩

/-- An import list has no names but those that it is made of. -/
theorem allSingle_importList {names : List String} (h : AllSingle names) :
    AllSingle (importList names) := by
  intro name hname
  rw [importList, List.mem_filter, List.mem_eraseDups] at hname
  exact h name hname.1

theorem singleLine_optionalMark (optional : Bool) : SingleLine (optionalMark optional) := by
  cases optional <;> decide

theorem singleLine_bracketed_iff {name : String} {optional : Bool} :
    SingleLine (bracketed name optional) ↔ SingleLine name := by
  cases optional <;> simp +decide [bracketed]

/-- A comment is one line at most, as its text is put on one line before. -/
theorem allSingle_commentLines {indent comment : String} (hindent : SingleLine indent)
    (h : SingleLine comment) : AllSingle (commentLines indent comment) := by
  rw [commentLines]
  split
  · exact allSingle_nil
  · simp only [allSingle_cons_iff, singleLine_append_iff]
    exact ⟨⟨⟨hindent, by decide⟩, h⟩, allSingle_nil⟩

/-- The ids behind a property are among the texts of its type. -/
theorem allSingle_property_refs {property : Property} (h : AllSingle property.typeTexts) :
    AllSingle property.refs := by
  fun_induction Property.refs property with
  | case1 ref inner description format enum ih =>
    rw [Property.typeTexts, allSingle_append_iff] at h
    exact ih h.2
  | case2 property hleaf =>
    intro id hid
    have href := ((nonempty?_eq_some_iff _ _).mp (Option.mem_toList.mp hid)).1
    exact (allSingle_ref_and_type h).1 id (Option.mem_toList.mpr href)

theorem allSingle_returnRefs {operation : Operation} (h : AllSingle operation.texts) :
    AllSingle operation.returnRefs := by
  simp only [Operation.texts, List.cons_append, allSingle_cons_iff, allSingle_append_iff] at h
  obtain ⟨-, -, ⟨htype, hitems⟩, -⟩ := h
  rw [Operation.returnRefs]
  split
  · split
    · rename_i inner hinner
      rw [hinner, Option.toList_some, List.flatMap_singleton] at hitems
      exact allSingle_property_refs (hitems.mono (Property.typeTexts_subset inner))
    · exact allSingle_nil
  · split
    · rename_i tag htag
      have htag := ((nonempty?_eq_some_iff _ _).mp htag).1
      rw [htag] at htype
      split
      · exact allSingle_nil
      · exact htype
    · exact allSingle_nil

theorem allSingle_model_imports {model : Model} (h : AllSingle model.shownTexts) :
    AllSingle (modelImports model) := by
  rw [Model.shownTexts, allSingle_append_iff, allSingle_flatMap_iff] at h
  rw [modelImports]
  apply allSingle_importList
  rw [allSingle_map_iff]
  intro id hid
  obtain ⟨property, hproperty, hid⟩ := List.mem_flatMap.mp (List.mem_of_mem_filter hid)
  have hrefs := allSingle_property_refs (h.2 property hproperty)
  exact singleLine_interfaceName (allSingle_cons_iff.mpr ⟨hrefs id hid, allSingle_nil⟩)

/-- No line of an interface holds a line feed. -/
theorem allSingle_interface {model : Model} (h : AllSingle model.shownTexts) (split : Bool) :
    AllSingle (interfaceOf split model).lines := by
  have himports : AllSingle (interfaceOf split model).imports := by
    rw [interfaceOf]
    cases split with
    | false => exact allSingle_nil
    | true => exact allSingle_model_imports h
  have hheader : AllSingle (interfaceOf split model).header := by
    rw [Interface.header, allSingle_append_iff]
    refine ⟨allSingle_importLines himports (by decide), ?_⟩
    split <;> decide
  simp only [Model.shownTexts, allSingle_append_iff, allSingle_flatMap_iff] at h
  obtain ⟨⟨hid, hkeys⟩, hproperties⟩ := h
  rw [Interface.lines, allSingle_append_iff]
  refine ⟨hheader, ?_⟩
  have hname : SingleLine model.interfaceName := singleLine_interfaceName hid
  simp +decide only [Interface.body, interfaceOf, allSingle_append_iff, allSingle_cons_iff,
    singleLine_append_iff, allSingle_flatMap_iff, List.forall_mem_map, hname, true_and, and_true]
  intro entry hentry
  have hkey := hkeys entry.1 (List.mem_map_of_mem hentry)
  have htype := singleLine_property (hproperties entry.2 (List.mem_map_of_mem hentry))
  simp +decide only [Member.lines, memberOf, allSingle_append_iff, allSingle_cons_iff,
    singleLine_append_iff, singleLine_memberKey hkey, singleLine_optionalMark, htype, and_true]
  exact allSingle_commentLines (by decide) (singleLine_descriptionLine _)

theorem singleLine_field (group : OptionGroup) : SingleLine group.field := by
  rw [OptionGroup.field]
  cases group.location <;> decide

/-- Each member of a group stands for a parameter of the operation. -/
theorem exists_of_mem_groups {operation : Operation} {group : OptionGroup} {member : OptionMember}
    (hgroup : group ∈ groupsOf operation) (hmember : member ∈ group.members) :
    ∃ parameter ∈ operation.parameters, optionMemberOf parameter = member := by
  obtain ⟨location, -, hat⟩ := List.mem_filterMap.mp hgroup
  rw [groupAt?] at hat
  split at hat
  · cases hat
  · cases hat
    obtain ⟨parameter, hparameter, hmember⟩ := List.mem_map.mp hmember
    exact ⟨parameter, List.mem_of_mem_filter hparameter, hmember⟩

theorem allSingle_optionMember {parameter : Parameter} (h : AllSingle parameter.texts) :
    AllSingle (optionMemberOf parameter).lines := by
  have htype := singleLine_parameter h
  simp only [Parameter.texts, List.cons_append, allSingle_cons_iff] at h
  simp +decide only [OptionMember.lines, optionMemberOf, allSingle_append_iff, allSingle_cons_iff,
    singleLine_append_iff, singleLine_memberKey h.1, singleLine_optionalMark, htype, and_true]
  exact allSingle_commentLines (by decide) (singleLine_descriptionLine _)

/-- No line of options holds a line feed. -/
theorem allSingle_options {operation : Operation} (h : AllSingle operation.texts) (split : Bool) :
    AllSingle (optionsOf split operation).lines := by
  have hname := singleLine_optionsName h
  simp only [Operation.texts, List.cons_append, allSingle_cons_iff, allSingle_append_iff,
    allSingle_flatMap_iff] at h
  obtain ⟨-, -, -, hparameters⟩ := h
  have himports : AllSingle (optionsOf split operation).imports := by
    rw [optionsOf]
    cases split with
    | false => exact allSingle_nil
    | true =>
      apply allSingle_importList
      rw [allSingle_map_iff]
      intro parameter hparameter
      have htexts := hparameters parameter (List.mem_of_mem_filter hparameter)
      simp only [Parameter.texts, List.cons_append, allSingle_cons_iff,
        allSingle_append_iff] at htexts
      exact singleLine_interfaceName htexts.2.1.2
  have hheader : AllSingle (optionsOf split operation).header := by
    rw [Options.header]
    split
    · simp +decide only [importLine, allSingle_cons_iff, allSingle_append_iff, true_and, and_true]
      exact allSingle_importLines himports (by decide)
    · exact allSingle_nil
  rw [Options.lines, allSingle_append_iff]
  refine ⟨hheader, ?_⟩
  simp +decide only [Options.body, optionsOf, allSingle_append_iff, allSingle_cons_iff,
    singleLine_append_iff, allSingle_flatMap_iff, hname, true_and, and_true]
  intro group hgroup
  simp +decide only [OptionGroup.lines, allSingle_append_iff, allSingle_cons_iff,
    singleLine_append_iff, allSingle_flatMap_iff, singleLine_optionalMark, singleLine_field,
    true_and, and_true]
  intro member hmember
  obtain ⟨parameter, hparameter, rfl⟩ := exists_of_mem_groups hgroup hmember
  exact allSingle_optionMember (hparameters parameter hparameter)

theorem singleLine_memberDoc {group : OptionGroup} {parameter : Parameter}
    (h : AllSingle parameter.texts) :
    SingleLine (memberDoc group (optionMemberOf parameter)) := by
  have htype := singleLine_parameter h
  simp only [Parameter.texts, List.cons_append, allSingle_cons_iff, allSingle_append_iff] at h
  have hremark : SingleLine (memberRemark (optionMemberOf parameter)) := by
    rw [memberRemark]
    dsimp only
    split
    · exact singleLine_docLine _
    · have hvalues : SingleLine
          (String.intercalate ", " ((optionMemberOf parameter).values.map literal)) :=
        singleLine_intercalate (by decide)
          (allSingle_map_iff.mpr fun value hvalue => singleLine_literal (h.2.1.1 value hvalue))
      apply singleLine_trim
      simp +decide only [singleLine_append_iff, singleLine_docLine, hvalues, and_true]
  have hname : SingleLine (optionMemberOf parameter).name := h.1
  have htype : SingleLine (optionMemberOf parameter).type := htype
  rw [memberDoc]
  split <;>
    simp +decide only [paramLine, singleLine_append_iff, singleLine_bracketed_iff,
      singleLine_field, hname, htype, hremark, and_true]

/-- The remarks of an operation are free text on one line each, whatever the document holds. -/
theorem allSingle_remarks (operation : Operation) : AllSingle (remarks operation) := by
  have hdoc : ∀ text : Option String, AllSingle (text.map docLine).toList := by
    intro text
    cases text with
    | none => exact allSingle_nil
    | some text => exact allSingle_cons_iff.mpr ⟨singleLine_docLine text, allSingle_nil⟩
  rw [remarks, allSingle_append_iff]
  refine ⟨hdoc _, ?_⟩
  split
  · exact allSingle_nil
  · exact hdoc _

/-- The lines of a comment block hold free text on one line each, and names that are single
lines. -/
theorem allSingle_docLines {operation : Operation} (h : AllSingle operation.texts) :
    AllSingle (docLines operation) := by
  have hgroups : AllSingle ((groupsOf operation).flatMap groupDoc) := by
    rw [allSingle_flatMap_iff]
    intro group hgroup
    simp +decide only [groupDoc, paramLine, allSingle_cons_iff, singleLine_append_iff,
      singleLine_bracketed_iff, singleLine_field, allSingle_map_iff, true_and, and_true]
    intro member hmember
    obtain ⟨parameter, hparameter, rfl⟩ := exists_of_mem_groups hgroup hmember
    simp only [Operation.texts, List.cons_append, allSingle_cons_iff, allSingle_append_iff,
      allSingle_flatMap_iff] at h
    exact singleLine_memberDoc (h.2.2.2 parameter hparameter)
  rw [docLines]
  split
  · exact allSingle_nil
  · have hempty : AllSingle (if (remarks operation).isEmpty then [] else [""]) := by
      split <;> decide
    simp +decide only [paramLine, allSingle_append_iff, allSingle_cons_iff, singleLine_append_iff,
      singleLine_bracketed_iff, allSingle_remarks, hempty, hgroups, singleLine_optionsName h,
      singleLine_returnType h, and_true]

theorem singleLine_starred {line : String} (h : SingleLine line) : SingleLine (starred line) := by
  rw [starred]
  split
  · decide
  · exact singleLine_append_iff.mpr ⟨by decide, h⟩

/-- No line of a method holds a line feed, with its comment block or without it. -/
theorem allSingle_method {path : String} {operation : Operation} (hpath : SingleLine path)
    (h : AllSingle operation.texts) (docs : Bool) :
    AllSingle (methodOf docs path operation).lines := by
  have hblock : AllSingle (methodOf docs path operation).docBlock := by
    have hdoc : AllSingle (methodOf docs path operation).doc := by
      rw [methodOf]
      cases docs with
      | false => exact allSingle_nil
      | true => exact allSingle_docLines h
    rw [Method.docBlock]
    split
    · exact allSingle_nil
    · simp +decide only [allSingle_append_iff, allSingle_map_iff, true_and, and_true]
      exact fun line hline => singleLine_starred (hdoc line hline)
  have hnames : SingleLine operation.method ∧ SingleLine operation.nickname := by
    simp only [Operation.texts, List.cons_append, allSingle_cons_iff] at h
    exact ⟨h.1, h.2.1⟩
  rw [Method.lines, allSingle_append_iff]
  refine ⟨hblock, ?_⟩
  have hname : SingleLine operation.methodName := singleLine_lowerFirst hnames.2
  simp +decide only [Method.body, methodOf, allSingle_cons_iff, singleLine_append_iff,
    singleLine_optionalMark, hname, singleLine_optionsName h, singleLine_returnType h,
    singleLine_upper hnames.1, hpath, and_true]

/-- The path of an operation and its texts are among the texts of the resource. -/
theorem singleLine_of_mem_targets {resource : Resource} {target : String × Operation}
    (h : AllSingle resource.texts) (htarget : target ∈ resource.targets) :
    SingleLine target.1 ∧ AllSingle target.2.texts := by
  obtain ⟨api, hapi, htarget⟩ := List.mem_flatMap.mp htarget
  obtain ⟨operation, hoperation, rfl⟩ := List.mem_map.mp htarget
  simp only [Resource.texts, allSingle_append_iff, allSingle_flatMap_iff] at h
  have hapi := h.2 api hapi
  simp only [Api.texts, allSingle_cons_iff, allSingle_flatMap_iff] at hapi
  exact ⟨hapi.1, hapi.2 operation hoperation⟩

theorem allSingle_of_mem_operations {resource : Resource} {operation : Operation}
    (h : AllSingle resource.texts) (hoperation : operation ∈ resource.operations) :
    AllSingle operation.texts := by
  obtain ⟨target, htarget, rfl⟩ := List.mem_map.mp hoperation
  exact (singleLine_of_mem_targets h htarget).2

theorem allSingle_of_mem_models {resource : Resource} {model : Model}
    (h : AllSingle resource.texts) (hmodel : model ∈ resource.models.values) :
    AllSingle model.texts := by
  simp only [Resource.texts, allSingle_append_iff, allSingle_flatMap_iff] at h
  exact h.1.2 model hmodel

theorem allSingle_classImports {resource : Resource} (h : AllSingle resource.texts) :
    AllSingle (classImports resource) := by
  apply allSingle_importList
  rw [allSingle_flatMap_iff]
  intro operation hoperation
  have htexts := allSingle_of_mem_operations h hoperation
  rw [allSingle_cons_iff, allSingle_map_iff]
  refine ⟨singleLine_optionsName htexts, ?_⟩
  intro id hid
  have hrefs := allSingle_returnRefs htexts id hid
  exact singleLine_interfaceName (allSingle_cons_iff.mpr ⟨hrefs, allSingle_nil⟩)

theorem allSingle_spaced {block : List String} (h : AllSingle block) : AllSingle (spaced block) :=
  allSingle_cons_iff.mpr ⟨by decide, h⟩

/-- The lines of a class file. -/
theorem allSingle_class {resource : Resource} {name : String} (hname : SingleLine name)
    (h : AllSingle resource.texts) (split docs : Bool) :
    AllSingle (classOf split docs name resource).lines := by
  have hsurroundings : AllSingle (classOf split docs name resource).surroundings.lines := by
    rw [classOf]
    cases split with
    | true =>
      simp +decide only [if_true, Surroundings.lines, importLine, allSingle_cons_iff, true_and]
      exact allSingle_importLines (allSingle_classImports h) (by decide)
    | false =>
      simp +decide only [if_false, Surroundings.lines, importLine, List.cons_append,
        allSingle_cons_iff, allSingle_append_iff, allSingle_flatMap_iff, List.forall_mem_map,
        true_and]
      constructor
      · intro model hmodel
        have htexts := (allSingle_of_mem_models h hmodel).mono (Model.shownTexts_subset model)
        exact allSingle_spaced (allSingle_interface htexts false)
      · intro operation hoperation
        exact allSingle_spaced
          (allSingle_options (allSingle_of_mem_operations h hoperation) false)
  rw [ClientClass.lines, allSingle_append_iff]
  refine ⟨hsurroundings, ?_⟩
  have hbase : SingleLine resource.basePath := by
    simp only [Resource.texts, allSingle_append_iff, allSingle_cons_iff] at h
    tauto
  have hcomment : AllSingle (commentLines "" (descriptionLine resource.description)) :=
    allSingle_commentLines (by decide) (singleLine_descriptionLine _)
  simp +decide only [ClientClass.body, classOf, allSingle_append_iff, allSingle_cons_iff,
    singleLine_append_iff, allSingle_flatMap_iff, List.forall_mem_map, hname, hbase, hcomment,
    true_and, and_true]
  intro target htarget
  obtain ⟨hpath, htexts⟩ := singleLine_of_mem_targets h htarget
  exact allSingle_spaced (allSingle_method hpath htexts docs)

end DeclaredLines

end ApiClientGen
