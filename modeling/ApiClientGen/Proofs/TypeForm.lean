import ApiClientGen.Naming.TypeName
import Mathlib.Data.List.Basic

/-!
How types are built. A type names the interface of a model, stands for a tag or lists literals,
and may have array layers around it. The text of a type does not tell how it was built: the tag
`IPet` and the model `Pet` give the same text. The ids to which a property, a parameter or a
result refers are exactly the models that their types name.
-/
namespace ApiClientGen

theorem nonempty?_eq_some_iff (text : Option String) (id : String) :
    nonempty? text = some id ↔ text = some id ∧ id ≠ "" := by
  unfold nonempty?
  split
  · constructor
    · intro h
      cases h
    · rintro ⟨h, hne⟩
      exact absurd (Option.some.inj h).symm hne
  · rename_i hne
    constructor
    · intro h
      refine ⟨h, ?_⟩
      rintro rfl
      exact hne h
    · exact fun h => h.1

theorem Naming.interfaceName_some {id : String} (h : id ≠ "") :
    Naming.interfaceName (some id) = "I" ++ id := by
  have hid : nonempty? (some id) = some id := (nonempty?_eq_some_iff _ _).mpr ⟨rfl, h⟩
  rw [Naming.interfaceName, hid]

/-- The interface of a model bears its name on account of the id alone. -/
theorem Naming.nonempty?_of_interfaceName_eq {found : Option String} {id : String} (hid : id ≠ "")
    (h : Naming.interfaceName found = Naming.interfaceName (some id)) :
    nonempty? found = some id := by
  rw [Naming.interfaceName_some hid, Naming.interfaceName] at h
  cases hfound : nonempty? found with
  | none =>
    rw [hfound] at h
    have hhead := congrArg (fun text : String => text.toList.head?) h
    simp [Naming.unknownType] at hhead
  | some other =>
    rw [hfound] at h
    rw [(String.append_right_inj "I").mp h]

theorem Declaration.head?_literalUnion (value : String) (rest : List String) :
    (Declaration.literalUnion (value :: rest)).toList.head? = some '\'' := by
  rw [Declaration.literalUnion, String.toList_intercalate]
  cases rest with
  | nil => simp [Declaration.literal]
  | cons next rest => simp [Declaration.literal]

/-- How a type is built. -/
inductive TypeForm
  | model (id : String)
  | tag (tag : Option String)
  | values (values : List String)
  | array (item : TypeForm)

namespace TypeForm

def ofId (id : Option String) : TypeForm :=
  match nonempty? id with
  | some id => model id
  | none => tag none

def text : TypeForm → String
  | model id => Naming.interfaceName (some id)
  | tag word => Naming.tagType word
  | values found => Declaration.literalUnion found
  | array item => Naming.arrayOf item.text

/-- The id of the model that a type names below its array layers. -/
def model? : TypeForm → Option String
  | model id => some id
  | tag _ => none
  | values _ => none
  | array item => item.model?

def layered (form : TypeForm) : ℕ → TypeForm
  | 0 => form
  | n + 1 => array (form.layered n)

def marks : ℕ → String
  | 0 => ""
  | n + 1 => marks n ++ "[]"

theorem text_layered (form : TypeForm) (n : ℕ) :
    (form.layered n).text = form.text ++ marks n := by
  induction n with
  | zero => simp [layered, marks]
  | succ n ih => rw [layered, text, Naming.arrayOf, ih, marks, String.append_assoc]

theorem model?_eq_some_iff (form : TypeForm) (id : String) :
    form.model? = some id ↔ ∃ n, form = (model id).layered n := by
  constructor
  · intro h
    induction form with
    | model other =>
      refine ⟨0, ?_⟩
      rw [Option.some.inj h]
      rfl
    | tag word => cases h
    | values found => cases h
    | array item ih =>
      obtain ⟨n, rfl⟩ := ih h
      exact ⟨n + 1, rfl⟩
  · rintro ⟨n, rfl⟩
    induction n with
    | zero => rfl
    | succ n ih => exact ih

@[simp] theorem model?_ofId (id : Option String) : (ofId id).model? = nonempty? id := by
  unfold ofId
  split
  · rename_i h
    rw [h]
    rfl
  · rename_i h
    rw [h]
    rfl

@[simp] theorem text_ofId (id : Option String) :
    (ofId id).text = Naming.interfaceName id := by
  unfold ofId
  split
  · rename_i found h
    obtain ⟨rfl, -⟩ := (nonempty?_eq_some_iff _ _).mp h
    rfl
  · rename_i h
    simp only [text, Naming.tagType, Naming.interfaceName, h]
    rfl

end TypeForm

open TypeForm

def Property.form : Property → TypeForm
  | ⟨some "array", _, some inner, _, _, _⟩ => .array inner.form
  | property =>
    match nonempty? property.ref with
    | some id => .model id
    | none => .tag property.type

def Parameter.form (parameter : Parameter) : TypeForm :=
  match parameter.enum with
  | some (value :: rest) => .values (value :: rest)
  | _ => if parameter.location = some .body then .ofId parameter.type else .tag parameter.type

def Operation.returnForm (operation : Operation) : TypeForm :=
  if operation.type = some "array" then
    match operation.items with
    | some inner => .array inner.form
    | none => .array (.tag none)
  else match operation.type with
    | some word => if word ∈ primitiveTags then .tag (some word) else .ofId (some word)
    | none => .tag none

theorem Property.text_form (property : Property) : property.form.text = property.typeName := by
  fun_induction Property.form property with
  | case1 ref inner description format enum ih => rw [text, ih, Property.typeName]
  | case2 property hleaf id h =>
    rw [Property.typeName, h]
    · rfl
    · exact hleaf
  | case3 property hleaf h =>
    rw [Property.typeName, h]
    · rfl
    · exact hleaf

theorem Property.refs_eq_form (property : Property) :
    property.refs = property.form.model?.toList := by
  fun_induction Property.form property with
  | case1 ref inner description format enum ih => rw [model?, ← ih, Property.refs]
  | case2 property hleaf id h =>
    rw [Property.refs, h]
    · rfl
    · exact hleaf
  | case3 property hleaf h =>
    rw [Property.refs, h]
    · rfl
    · exact hleaf

theorem Parameter.enum_of_isEnumerated {parameter : Parameter}
    (h : parameter.isEnumerated = true) :
    ∃ value rest, parameter.enum = some (value :: rest) := by
  obtain ⟨name, location, required, enum, description, type, format⟩ := parameter
  rcases enum with _ | ⟨_ | ⟨value, rest⟩⟩
  · cases h
  · cases h
  · exact ⟨value, rest, rfl⟩

theorem Parameter.form_of_not_enumerated {parameter : Parameter}
    (h : parameter.isEnumerated = false) :
    parameter.form =
      if parameter.location = some .body then .ofId parameter.type else .tag parameter.type := by
  obtain ⟨name, location, required, enum, description, type, format⟩ := parameter
  rcases enum with _ | ⟨_ | ⟨value, rest⟩⟩
  · rfl
  · rfl
  · cases h

theorem Parameter.typeName_of_not_enumerated {parameter : Parameter}
    (h : parameter.isEnumerated = false) :
    parameter.typeName =
      if parameter.location = some .body then Naming.interfaceName parameter.type
      else Naming.tagType parameter.type := by
  obtain ⟨name, location, required, enum, description, type, format⟩ := parameter
  rcases enum with _ | ⟨_ | ⟨value, rest⟩⟩
  · rfl
  · rfl
  · cases h

theorem Parameter.text_form (parameter : Parameter) :
    parameter.form.text = parameter.typeName := by
  cases henum : parameter.isEnumerated with
  | true =>
    obtain ⟨value, rest, hvalues⟩ := Parameter.enum_of_isEnumerated henum
    rw [Parameter.form, Parameter.typeName, hvalues]
    rfl
  | false =>
    rw [Parameter.form_of_not_enumerated henum, Parameter.typeName_of_not_enumerated henum]
    split
    · exact text_ofId parameter.type
    · rfl

theorem Parameter.refs_eq_form (parameter : Parameter) :
    parameter.refs = parameter.form.model?.toList := by
  cases henum : parameter.isEnumerated with
  | true =>
    obtain ⟨value, rest, hvalues⟩ := Parameter.enum_of_isEnumerated henum
    rw [Parameter.form, hvalues]
    simp [Parameter.refs, henum, model?]
  | false =>
    rw [Parameter.form_of_not_enumerated henum]
    by_cases hbody : parameter.location = some .body
    · simp [Parameter.refs, hbody, henum]
    · simp [Parameter.refs, hbody, model?]

/-- The text of the type of a body tells whether it names a model: a union begins with a quote. -/
theorem Parameter.form_eq_model_iff {parameter : Parameter} {id : String} (hid : id ≠ "")
    (hbody : parameter.location = some .body) :
    parameter.form = .model id ↔ parameter.typeName = Naming.interfaceName (some id) := by
  constructor
  · intro h
    rw [← Parameter.text_form, h, text]
  · intro h
    cases henum : parameter.isEnumerated with
    | true =>
      obtain ⟨value, rest, hvalues⟩ := Parameter.enum_of_isEnumerated henum
      have hhead := Declaration.head?_literalUnion value rest
      simp only [Parameter.typeName, hvalues] at h
      rw [h, Naming.interfaceName_some hid] at hhead
      simp at hhead
    | false =>
      rw [Parameter.typeName_of_not_enumerated henum, if_pos hbody] at h
      rw [Parameter.form_of_not_enumerated henum, if_pos hbody, ofId,
        Naming.nonempty?_of_interfaceName_eq hid h]

/-- Only a body names a model, and its type has no array layers. -/
theorem Parameter.model?_form_eq_some_iff (parameter : Parameter) (id : String) :
    parameter.form.model? = some id ↔
      parameter.location = some .body ∧ parameter.form = .model id := by
  constructor
  · intro h
    cases henum : parameter.isEnumerated with
    | true =>
      obtain ⟨value, rest, hvalues⟩ := Parameter.enum_of_isEnumerated henum
      rw [Parameter.form, hvalues] at h
      cases h
    | false =>
      rw [Parameter.form_of_not_enumerated henum] at h ⊢
      by_cases hbody : parameter.location = some .body
      · rw [if_pos hbody, model?_ofId] at h
        rw [if_pos hbody, ofId, h]
        exact ⟨hbody, rfl⟩
      · rw [if_neg hbody] at h
        cases h
  · rintro ⟨-, h⟩
    rw [h]
    rfl

theorem Operation.text_returnForm (operation : Operation) :
    operation.returnForm.text = operation.returnType := by
  unfold Operation.returnForm Operation.returnType
  by_cases harray : operation.type = some "array"
  · cases hitems : operation.items with
    | none => simp only [harray, if_true]; rfl
    | some inner => simp only [harray, if_true, text, Property.text_form]
  · cases htype : operation.type with
    | none => rfl
    | some word =>
      by_cases hprim : word ∈ primitiveTags <;> simp [← htype, harray, hprim, text]

theorem Operation.returnRefs_eq_form (operation : Operation) :
    operation.returnRefs = operation.returnForm.model?.toList := by
  unfold Operation.returnForm Operation.returnRefs
  by_cases harray : operation.type = some "array"
  · cases hitems : operation.items with
    | none => simp [harray, model?]
    | some inner => simp [harray, model?, Property.refs_eq_form]
  · simp only [harray, if_false]
    cases htype : operation.type with
    | none => rfl
    | some word =>
      by_cases hempty : word = ""
      · subst hempty
        rfl
      · have hword : nonempty? (some word) = some word :=
          (nonempty?_eq_some_iff _ _).mpr ⟨rfl, hempty⟩
        by_cases hprim : word ∈ primitiveTags <;> simp [hword, hprim, model?]

/-- How the types of the generated text are built: the properties of the models in order, then for
each operation its parameters and its result. -/
def Resource.typeForms (resource : Resource) : List TypeForm :=
  resource.models.values.flatMap (fun model => model.properties.values.map Property.form) ++
    resource.operations.flatMap fun operation =>
      operation.parameters.map Parameter.form ++ [operation.returnForm]

theorem Operation.refs_eq_forms (operation : Operation) :
    operation.refs =
      (operation.parameters.map Parameter.form ++ [operation.returnForm]).filterMap model? := by
  rw [Operation.refs, List.filterMap_eq_flatMap_toList, List.flatMap_append, List.flatMap_map,
    List.flatMap_singleton, Operation.returnRefs_eq_form]
  congr 2
  exact funext Parameter.refs_eq_form

theorem Model.refs_eq_forms (model : Model) :
    model.refs = (model.properties.values.map Property.form).filterMap model? := by
  rw [Model.refs, List.filterMap_eq_flatMap_toList, List.flatMap_map]
  congr 1
  exact funext Property.refs_eq_form

/-- The ids to which a resource refers are the models that its types name, in order. -/
theorem Resource.refs_eq_forms (resource : Resource) :
    resource.refs = resource.typeForms.filterMap model? := by
  have hmodels : Model.refs = fun model =>
      (model.properties.values.map Property.form).filterMap model? :=
    funext Model.refs_eq_forms
  have hoperations : Operation.refs = fun operation =>
      (operation.parameters.map Parameter.form ++ [operation.returnForm]).filterMap model? :=
    funext Operation.refs_eq_forms
  rw [Resource.typeForms, List.filterMap_append, List.filterMap_flatMap, List.filterMap_flatMap,
    Resource.refs, hmodels, hoperations]

theorem Property.ne_empty_of_model?_form {property : Property} {id : String}
    (h : property.form.model? = some id) : id ≠ "" := by
  fun_induction Property.form property with
  | case1 ref inner description format enum ih => exact ih h
  | case2 property hleaf found hfound =>
    cases h
    exact ((nonempty?_eq_some_iff _ _).mp hfound).2
  | case3 property hleaf hnone => cases h

theorem Parameter.ne_empty_of_model?_form {parameter : Parameter} {id : String}
    (h : parameter.form.model? = some id) : id ≠ "" := by
  obtain ⟨hbody, hform⟩ := (Parameter.model?_form_eq_some_iff _ _).mp h
  cases henum : parameter.isEnumerated with
  | true =>
    obtain ⟨value, rest, hvalues⟩ := Parameter.enum_of_isEnumerated henum
    rw [Parameter.form, hvalues] at hform
    cases hform
  | false =>
    rw [Parameter.form_of_not_enumerated henum, if_pos hbody, model?_ofId] at h
    exact ((nonempty?_eq_some_iff _ _).mp h).2

theorem Operation.ne_empty_of_model?_returnForm {operation : Operation} {id : String}
    (h : operation.returnForm.model? = some id) : id ≠ "" := by
  unfold Operation.returnForm at h
  split at h
  · split at h
    · exact Property.ne_empty_of_model?_form h
    · cases h
  · split at h
    · split at h
      · cases h
      · rw [model?_ofId] at h
        exact ((nonempty?_eq_some_iff _ _).mp h).2
    · cases h

theorem Resource.mem_refs_iff (resource : Resource) (id : String) :
    id ∈ resource.refs ↔
      (∃ model ∈ resource.models.values, ∃ property ∈ model.properties.values,
        property.form.model? = some id) ∨
      ∃ operation ∈ resource.operations,
        (∃ parameter ∈ operation.parameters, parameter.form.model? = some id) ∨
          operation.returnForm.model? = some id := by
  simp only [Resource.refs, Model.refs, Operation.refs, List.mem_append, List.mem_flatMap,
    Property.refs_eq_form, Parameter.refs_eq_form, Operation.returnRefs_eq_form,
    Option.mem_toList]

theorem Resource.ne_empty_of_mem_refs {resource : Resource} {id : String}
    (h : id ∈ resource.refs) : id ≠ "" := by
  rcases (resource.mem_refs_iff id).mp h with
    ⟨model, _, property, _, hproperty⟩ | ⟨operation, _, ⟨parameter, _, hparameter⟩ | hreturn⟩
  · exact Property.ne_empty_of_model?_form hproperty
  · exact Parameter.ne_empty_of_model?_form hparameter
  · exact Operation.ne_empty_of_model?_returnForm hreturn

end ApiClientGen
