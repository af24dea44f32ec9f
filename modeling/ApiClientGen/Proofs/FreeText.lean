import ApiClientGen.Proofs.DeclaredLines

/-!
Where free text goes. Descriptions, summaries and notes may hold any characters, and all that the
generated files show of them stands on comment lines. So two resources that differ in nothing else
give the same files apart from their comments. The records are compared with their free text taken
out; on the declarations made of them this takes out the comments, and the lines that are left
when the comment lines are deleted are the same.
-/
namespace ApiClientGen

open TypeForm

section Silenced

/-- A property without descriptions, its items included. -/
def Property.silenced : Property → Property
  | ⟨type, ref, some inner, _, format, enum⟩ =>
    ⟨type, ref, some inner.silenced, none, format, enum⟩
  | ⟨type, ref, none, _, format, enum⟩ => ⟨type, ref, none, none, format, enum⟩

def Model.silenced (model : Model) : Model :=
  { model with
    description := none
    properties := model.properties.mapValues Property.silenced }

def Parameter.silenced (parameter : Parameter) : Parameter :=
  { parameter with description := none }

def Operation.silenced (operation : Operation) : Operation :=
  { operation with
    summary := none
    notes := none
    items := operation.items.map Property.silenced
    parameters := operation.parameters.map Parameter.silenced }

def Api.silenced (api : Api) : Api :=
  { api with
    description := none
    operations := api.operations.map Operation.silenced }

def Resource.silenced (resource : Resource) : Resource :=
  { resource with
    description := none
    models := resource.models.mapValues Model.silenced
    apis := resource.apis.map Api.silenced }

/-- Types are built without free text. -/
theorem Property.form_silenced (property : Property) :
    property.silenced.form = property.form := by
  fun_induction Property.silenced property with
  | case1 type ref inner description format enum ih =>
    by_cases harray : type = some "array"
    · rw [harray, Property.form, Property.form, ih]
    · rw [Property.form, Property.form]
      · intro _ _ _ _ _ hlayer
        cases hlayer
        exact harray rfl
      · intro _ _ _ _ _ hlayer
        cases hlayer
        exact harray rfl
  | case2 type ref description format enum =>
    rw [Property.form, Property.form]
    · intro _ _ _ _ _ hlayer
      cases hlayer
    · intro _ _ _ _ _ hlayer
      cases hlayer

theorem Property.description_silenced (property : Property) :
    property.silenced.description = none := by
  obtain ⟨type, ref, items, description, format, enum⟩ := property
  cases items <;> rfl

@[simp] theorem Property.typeName_silenced (property : Property) :
    property.silenced.typeName = property.typeName := by
  rw [← Property.text_form, Property.form_silenced, Property.text_form]

@[simp] theorem Property.refs_silenced (property : Property) :
    property.silenced.refs = property.refs := by
  rw [Property.refs_eq_form, Property.form_silenced, ← Property.refs_eq_form]

@[simp] theorem Model.refs_silenced (model : Model) : model.silenced.refs = model.refs := by
  rw [Model.refs, Model.silenced, OrderedMap.values_mapValues, List.flatMap_map]
  simp only [Property.refs_silenced]
  rfl

@[simp] theorem Operation.returnType_silenced (operation : Operation) :
    operation.silenced.returnType = operation.returnType := by
  obtain ⟨method, nickname, summary, notes, type, items, parameters⟩ := operation
  cases items with
  | none => rfl
  | some inner => simp [Operation.silenced, Operation.returnType]

@[simp] theorem Operation.returnRefs_silenced (operation : Operation) :
    operation.silenced.returnRefs = operation.returnRefs := by
  obtain ⟨method, nickname, summary, notes, type, items, parameters⟩ := operation
  cases items with
  | none => rfl
  | some inner => simp [Operation.silenced, Operation.returnRefs]

/-- Leaving out free text keeps each operation at its path. -/
theorem Resource.targets_silenced (resource : Resource) :
    resource.silenced.targets =
      resource.targets.map fun target => (target.1, target.2.silenced) := by
  simp [Resource.targets, Resource.silenced, Api.targets, Api.silenced, List.map_flatMap,
    List.flatMap_map, Function.comp_def]

theorem Resource.operations_silenced (resource : Resource) :
    resource.silenced.operations = resource.operations.map Operation.silenced := by
  simp [Resource.operations, Resource.targets_silenced, Function.comp_def]

theorem Property.texts_silenced (property : Property) :
    property.silenced.texts = property.texts := by
  fun_induction Property.silenced property with
  | case1 type ref inner description format enum ih => rw [Property.texts, ih, Property.texts]
  | case2 type ref description format enum => rfl

theorem Model.texts_silenced (model : Model) : model.silenced.texts = model.texts := by
  simp [Model.texts, Model.silenced, OrderedMap.keys_mapValues, OrderedMap.values_mapValues,
    List.flatMap_map, Property.texts_silenced]

theorem Parameter.texts_silenced (parameter : Parameter) :
    parameter.silenced.texts = parameter.texts :=
  rfl

theorem Operation.texts_silenced (operation : Operation) :
    operation.silenced.texts = operation.texts := by
  obtain ⟨method, nickname, summary, notes, type, items, parameters⟩ := operation
  cases items <;>
    simp [Operation.texts, Operation.silenced, List.flatMap_map, Property.texts_silenced,
      Parameter.texts_silenced]

theorem Api.texts_silenced (api : Api) : api.silenced.texts = api.texts := by
  simp [Api.texts, Api.silenced, List.flatMap_map, Operation.texts_silenced]

/-- Free text is no other text. -/
theorem Resource.texts_silenced (resource : Resource) :
    resource.silenced.texts = resource.texts := by
  simp [Resource.texts, Resource.silenced, OrderedMap.keys_mapValues, OrderedMap.values_mapValues,
    List.flatMap_map, Model.texts_silenced, Api.texts_silenced]

end Silenced

namespace Declaration

def Member.quiet (member : Member) : Member := { member with comment := "" }

def Interface.quiet (interface : Interface) : Interface :=
  { interface with members := interface.members.map Member.quiet }

def OptionMember.quiet (member : OptionMember) : OptionMember := { member with comment := "" }

def OptionGroup.quiet (group : OptionGroup) : OptionGroup :=
  { group with members := group.members.map OptionMember.quiet }

def Options.quiet (options : Options) : Options :=
  { options with groups := options.groups.map OptionGroup.quiet }

def Method.quiet (method : Method) : Method := { method with doc := [] }

def Surroundings.quiet : Surroundings → Surroundings
  | .inline interfaces options =>
    .inline (interfaces.map Interface.quiet) (options.map Options.quiet)
  | .imported names => .imported names

def ClientClass.quiet (file : ClientClass) : ClientClass :=
  { file with
    surroundings := file.surroundings.quiet
    comment := ""
    methods := file.methods.map Method.quiet }

theorem memberOf_silenced (required : List String) (name : String) (property : Property) :
    memberOf required name property.silenced = (memberOf required name property).quiet := by
  rw [memberOf, Property.typeName_silenced, Property.description_silenced]
  rfl

/-- The interface of a model without free text is that of the model, without its comments. -/
theorem interfaceOf_silenced (split : Bool) (model : Model) :
    interfaceOf split model.silenced = (interfaceOf split model).quiet := by
  have himports : modelImports model.silenced = modelImports model := by
    rw [modelImports, Model.refs_silenced]
    rfl
  rw [interfaceOf, himports, Interface.quiet, interfaceOf]
  congr 1
  simp [Model.silenced, OrderedMap.mapValues, Function.comp_def, memberOf_silenced]

theorem optionMemberOf_silenced (parameter : Parameter) :
    optionMemberOf parameter.silenced = (optionMemberOf parameter).quiet :=
  rfl

theorem groupAt?_silenced (operation : Operation) (location : Location) :
    groupAt? operation.silenced location =
      (groupAt? operation location).map OptionGroup.quiet := by
  have hfilter : (operation.silenced.parameters.filter fun parameter =>
      parameter.location = some location) =
        (operation.parameters.filter fun parameter =>
          parameter.location = some location).map Parameter.silenced :=
    List.filter_map ..
  rw [groupAt?, hfilter, groupAt?]
  cases operation.parameters.filter fun parameter => parameter.location = some location with
  | nil => rfl
  | cons first rest => simp [OptionGroup.quiet, optionMemberOf_silenced]

theorem groupsOf_silenced (operation : Operation) :
    groupsOf operation.silenced = (groupsOf operation).map OptionGroup.quiet := by
  rw [groupsOf, groupsOf, List.map_filterMap, funext (groupAt?_silenced operation)]

theorem optionsImports_silenced (operation : Operation) :
    optionsImports operation.silenced = optionsImports operation := by
  rw [optionsImports, optionsImports]
  simp only [Operation.silenced, List.filter_map, List.map_map]
  rfl

/-- The options of an operation without free text are those of the operation, without their
comments. -/
theorem optionsOf_silenced (split : Bool) (operation : Operation) :
    optionsOf split operation.silenced = (optionsOf split operation).quiet := by
  rw [optionsOf, optionsImports_silenced, groupsOf_silenced]
  rfl

theorem methodOf_silenced (docs : Bool) (path : String) (operation : Operation) :
    methodOf false path operation.silenced = (methodOf docs path operation).quiet := by
  have hoptional : optionsOptional operation.silenced = optionsOptional operation := by
    rw [optionsOptional, Operation.silenced, List.any_map]
    rfl
  rw [methodOf, hoptional, Operation.returnType_silenced]
  rfl

theorem classImports_silenced (resource : Resource) :
    classImports resource.silenced = classImports resource := by
  rw [classImports, Resource.operations_silenced, List.flatMap_map]
  simp only [Operation.returnRefs_silenced]
  rfl

/-- The class of a resource without free text is that of the resource, without its comments. -/
theorem classOf_silenced (split docs : Bool) (name : String) (resource : Resource) :
    classOf split false name resource.silenced = (classOf split docs name resource).quiet := by
  have hmethods : (resource.silenced.targets.map fun target => methodOf false target.1 target.2) =
      (resource.targets.map fun target => methodOf docs target.1 target.2).map Method.quiet := by
    rw [Resource.targets_silenced, List.map_map, List.map_map]
    exact List.map_congr_left fun target _ => methodOf_silenced docs target.1 target.2
  rw [classOf, hmethods, classImports_silenced, Resource.operations_silenced, ClientClass.quiet]
  cases split with
  | true => rfl
  | false =>
    have hinterfaces : resource.silenced.models.values.map (interfaceOf false) =
        (resource.models.values.map (interfaceOf false)).map Interface.quiet := by
      rw [Resource.silenced, OrderedMap.values_mapValues, List.map_map, List.map_map]
      exact List.map_congr_left fun model _ => interfaceOf_silenced false model
    have hoptions : (resource.operations.map Operation.silenced).map (optionsOf false) =
        (resource.operations.map (optionsOf false)).map Options.quiet := by
      rw [List.map_map, List.map_map]
      exact List.map_congr_left fun operation _ => optionsOf_silenced false operation
    rw [hinterfaces, hoptions]
    rfl

end Declaration

namespace FreeText

open Declaration DeclaredLines Text TextLines

section Comments

/-- A line whose first characters other than spaces open a comment or go on with one. -/
def isCommentLine (line : List Char) : Bool :=
  match line.dropWhile (· == ' ') with
  | '/' :: '/' :: _ => true
  | '/' :: '*' :: '*' :: _ => true
  | '*' :: _ => true
  | _ => false

/-- A text without its comment lines. -/
def withoutComments (text : String) : String :=
  unlines (((lines text).filter fun line => !isCommentLine line).map String.ofList)

def code (list : List String) : List String :=
  list.filter fun line => !isCommentLine line.toList

@[simp] theorem code_append (first second : List String) :
    code (first ++ second) = code first ++ code second :=
  List.filter_append ..

theorem code_cons (line : String) (rest : List String) :
    code (line :: rest) = code [line] ++ code rest :=
  code_append [line] rest

theorem code_flatMap {α : Type} (f : α → List String) (items : List α) :
    code (items.flatMap f) = items.flatMap fun item => code (f item) :=
  List.filter_flatMap ..

/-- Comments can be left out line by line before the lines are put together. -/
theorem withoutComments_unlines {list : List String} (h : AllSingle list) :
    withoutComments (unlines list) = unlines (code list) := by
  rw [withoutComments, filter_lines_unlines h]
  rfl

theorem code_eq_nil {list : List String} (h : ∀ line ∈ list, isCommentLine line.toList = true) :
    code list = [] := by
  rw [code, List.filter_eq_nil_iff]
  intro line hline
  rw [h line hline]
  decide

/-- What stands in front of a comment is an indent of spaces. -/
theorem code_commentLines {indent : String} (hindent : ∀ c ∈ indent.toList, (c == ' ') = true)
    (comment : String) : code (commentLines indent comment) = [] := by
  apply code_eq_nil
  intro line hline
  rw [commentLines] at hline
  split at hline
  · cases hline
  · have hdrop : line.toList.dropWhile (· == ' ') = '/' :: '/' :: ' ' :: comment.toList := by
      rw [List.mem_singleton.mp hline, String.toList_append, String.toList_append,
        List.append_assoc, List.dropWhile_append_of_pos hindent]
      rfl
    rw [isCommentLine, hdrop]
    rfl

/-- A line of a comment block begins with a star, which makes it a comment whatever follows. -/
theorem isCommentLine_starred (line : String) : isCommentLine (starred line).toList = true := by
  rw [starred]
  split
  · decide
  · rw [String.toList_append]
    rfl

/-- A comment block is nothing but comments. -/
theorem code_docBlock (method : Method) : code method.docBlock = [] := by
  apply code_eq_nil
  intro line hline
  rw [Method.docBlock] at hline
  split at hline
  · cases hline
  · rw [List.mem_append, List.mem_append, List.mem_singleton, List.mem_singleton,
      List.mem_map] at hline
    rcases hline with (rfl | ⟨inner, -, rfl⟩) | rfl
    · decide
    · exact isCommentLine_starred inner
    · decide

theorem code_member (member : Member) : code member.quiet.lines = code member.lines := by
  rw [Member.lines, Member.lines, code_append, code_append, code_commentLines (by simp),
    code_commentLines (by simp)]
  rfl

/-- Without free text an interface loses comments only. -/
theorem code_interface (interface : Interface) :
    code interface.quiet.lines = code interface.lines := by
  have hbody : code interface.quiet.body = code interface.body := by
    simp only [Interface.body, Interface.quiet, code_append, code_flatMap, List.flatMap_map,
      code_member]
  rw [Interface.lines, Interface.lines, code_append, code_append, hbody]
  rfl

theorem code_optionMember (member : OptionMember) :
    code member.quiet.lines = code member.lines := by
  rw [OptionMember.lines, OptionMember.lines, code_append, code_append,
    code_commentLines (by simp), code_commentLines (by simp)]
  rfl

theorem code_optionGroup (group : OptionGroup) : code group.quiet.lines = code group.lines := by
  have hoptional : group.quiet.optional = group.optional := List.all_map ..
  have hmembers : code (group.quiet.members.flatMap OptionMember.lines) =
      code (group.members.flatMap OptionMember.lines) := by
    simp only [OptionGroup.quiet, code_flatMap, List.flatMap_map, code_optionMember]
  rw [OptionGroup.lines, OptionGroup.lines, hoptional, code_append, code_append, hmembers,
    code_append, code_append]
  rfl

/-- Without free text options lose comments only. -/
theorem code_options (options : Options) : code options.quiet.lines = code options.lines := by
  have hbody : code options.quiet.body = code options.body := by
    simp only [Options.body, Options.quiet, code_append, code_flatMap, List.flatMap_map,
      code_optionGroup]
  rw [Options.lines, Options.lines, code_append, code_append, hbody]
  rfl

theorem code_method (method : Method) : code method.quiet.lines = code method.lines := by
  rw [Method.lines, Method.lines, code_append, code_append, code_docBlock, code_docBlock]
  rfl

theorem code_spaced (block : List String) : code (spaced block) = "" :: code block := by
  rw [spaced, code_cons]
  rfl

theorem code_surroundings (surroundings : Surroundings) :
    code surroundings.quiet.lines = code surroundings.lines := by
  cases surroundings with
  | imported names => rfl
  | inline interfaces options =>
    have hinterfaces :
        code ((interfaces.map Interface.quiet).flatMap fun interface => spaced interface.lines) =
          code (interfaces.flatMap fun interface => spaced interface.lines) := by
      simp only [code_flatMap, List.flatMap_map, code_spaced, code_interface]
    have hoptions :
        code ((options.map Options.quiet).flatMap fun options => spaced options.lines) =
          code (options.flatMap fun options => spaced options.lines) := by
      simp only [code_flatMap, List.flatMap_map, code_spaced, code_options]
    rw [Surroundings.quiet, Surroundings.lines, Surroundings.lines, List.cons_append,
      List.cons_append, code_cons, code_append, hinterfaces, hoptions, ← code_append, ← code_cons]

/-- The comments are all that a class file shows on its comment lines. -/
theorem code_class (file : ClientClass) : code file.quiet.lines = code file.lines := by
  have hbody : code file.quiet.body = code file.body := by
    simp only [ClientClass.body, ClientClass.quiet, code_append, code_flatMap, List.flatMap_map,
      code_spaced, code_method]
    rw [code_commentLines (by simp), code_commentLines (by simp)]
  rw [ClientClass.lines, ClientClass.lines, code_append, code_append, hbody]
  exact congrArg (· ++ code file.body) (code_surroundings file.surroundings)

end Comments

variable {first second : Resource} {name : String}

/-- The code of a class file is that of the resource without free text. -/
theorem withoutComments_class {resource : Resource} (hname : SingleLine name)
    (htexts : AllSingle resource.texts) (split docs : Bool) :
    withoutComments (classText split docs name resource) =
      withoutComments (classText split false name resource.silenced) := by
  have hsilenced : AllSingle resource.silenced.texts := by rwa [Resource.texts_silenced]
  rw [classText, classText, withoutComments_unlines (allSingle_class hname htexts split docs),
    withoutComments_unlines (allSingle_class hname hsilenced split false),
    classOf_silenced split docs, code_class]

/-- The code of the file of an interface is that of the model without free text. -/
theorem withoutComments_interface {model : Model} (htexts : AllSingle model.texts)
    (split : Bool) :
    withoutComments (interfaceText split model) =
      withoutComments (interfaceText split model.silenced) := by
  have hshown := htexts.mono (Model.shownTexts_subset model)
  have hsilenced : AllSingle model.silenced.shownTexts :=
    AllSingle.mono (by rwa [Model.texts_silenced]) (Model.shownTexts_subset model.silenced)
  rw [interfaceText, interfaceText, withoutComments_unlines (allSingle_interface hshown split),
    withoutComments_unlines (allSingle_interface hsilenced split), interfaceOf_silenced,
    code_interface]

/-- The code of the file of options is that of the operation without free text. -/
theorem withoutComments_options {operation : Operation} (htexts : AllSingle operation.texts)
    (split : Bool) :
    withoutComments (optionsText split operation) =
      withoutComments (optionsText split operation.silenced) := by
  have hsilenced : AllSingle operation.silenced.texts := by rwa [Operation.texts_silenced]
  rw [optionsText, optionsText, withoutComments_unlines (allSingle_options htexts split),
    withoutComments_unlines (allSingle_options hsilenced split), optionsOf_silenced,
    code_options]

theorem interfaces_of_silenced {resource : Resource} (htexts : AllSingle resource.texts)
    (split : Bool) :
    (resource.models.values.map fun model => withoutComments (interfaceText split model)) =
      resource.silenced.models.values.map fun model =>
        withoutComments (interfaceText split model) := by
  rw [Resource.silenced, OrderedMap.values_mapValues, List.map_map]
  refine List.map_congr_left fun model hmodel => ?_
  rw [Function.comp_apply, withoutComments_interface (allSingle_of_mem_models htexts hmodel)]

theorem options_of_silenced {resource : Resource} (htexts : AllSingle resource.texts)
    (split : Bool) :
    (resource.operations.map fun operation => withoutComments (optionsText split operation)) =
      resource.silenced.operations.map fun operation =>
        withoutComments (optionsText split operation) := by
  rw [Resource.operations_silenced, List.map_map]
  refine List.map_congr_left fun operation hoperation => ?_
  rw [Function.comp_apply,
    withoutComments_options (allSingle_of_mem_operations htexts hoperation)]

/-- Two resources that differ only in free text, and whose other texts hold no line feed, give
files that are the same once the comment lines are taken out of them: the class, model by model
the interfaces, and operation by operation the options. -/
theorem free_text_shows_in_comments_only (split docs : Bool) (name : String)
    (first second : Resource) (hname : SingleLine name)
    (halike : first.silenced = second.silenced) (htexts : AllSingle first.texts) :
    withoutComments (classText split docs name first) =
        withoutComments (classText split docs name second) ∧
      (first.models.values.map fun model => withoutComments (interfaceText split model)) =
        (second.models.values.map fun model => withoutComments (interfaceText split model)) ∧
      (first.operations.map fun operation => withoutComments (optionsText split operation)) =
        second.operations.map fun operation => withoutComments (optionsText split operation) := by
  have hsecond : AllSingle second.texts := by
    rwa [← Resource.texts_silenced, ← halike, Resource.texts_silenced]
  refine ⟨?_, ?_, ?_⟩
  · rw [withoutComments_class hname htexts, withoutComments_class hname hsecond, halike]
  · rw [interfaces_of_silenced htexts, interfaces_of_silenced hsecond, halike]
  · rw [options_of_silenced htexts, options_of_silenced hsecond, halike]

def talking (text : String) : Resource where
  description := some text
  models := OrderedMap.empty.put "Pet"
    { id := some "Pet"
      description := some text
      properties := OrderedMap.empty.put "tags"
        { type := some "array",
          items := some { type := some "string", description := some text } } }
  apis := [
    { path := "/pets"
      description := some text
      operations := [
        { method := "get"
          nickname := "getPets"
          summary := some text
          notes := some (text ++ text)
          parameters := [
            { name := "kind", location := some .query, enum := some ["cat", "it's"],
              description := some text }] }] }]

/-- A text that would close a documentation block, end a comment line and open a literal. -/
def intrusive : String := "*/ end;\n\x7d // 'open\n/** \"quoted\" "

theorem intrusive_text_shows_in_comments_only :
    (SingleLine "Pets" ∧ (talking intrusive).silenced = (talking "").silenced ∧
      AllSingle (talking intrusive).texts) ∧
    classText false true "Pets" (talking intrusive) ≠ classText false true "Pets" (talking "") ∧
    withoutComments (classText false true "Pets" (talking intrusive)) =
      withoutComments (classText false true "Pets" (talking "")) := by
  have hname : SingleLine "Pets" := by decide
  have halike : (talking intrusive).silenced = (talking "").silenced := rfl
  have htexts : AllSingle (talking intrusive).texts := by decide +kernel
  refine ⟨⟨hname, halike, htexts⟩, by decide +kernel, ?_⟩
  exact (free_text_shows_in_comments_only false true "Pets" (talking intrusive) (talking "") hname
    halike htexts).1

end FreeText

end ApiClientGen
