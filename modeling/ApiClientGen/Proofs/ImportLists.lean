import ApiClientGen.Declaration.ClientClass
import ApiClientGen.Proofs.ReferenceScan

/-!
What the files import from each other, against the types that they show. Each list has the names
that its file needs, once and in the order in which they are first used: an interface those of the
models that its members name, its own apart, options those of the models that its bodies name, and
a class the options and models in the signatures of its methods.
-/
namespace ApiClientGen.ImportLists

open Declaration ReferenceScan TypeForm

/-- The interface that a type names below its array layers. -/
def interface? (form : TypeForm) : Option String :=
  form.model?.map fun id => Naming.interfaceName (some id)

/-- A type, given by its form and its text, ends in the interface of a model. -/
def EndsIn (form : TypeForm) (type name : String) : Prop :=
  ∃ id n, form = (TypeForm.model id).layered n ∧ type = name ++ marks n ∧
    name = Naming.interfaceName (some id)

def fieldModels (model : Model) : List String :=
  model.properties.values.filterMap fun property => property.form.model?

def bodyInterfaces (operation : Operation) : List String :=
  operation.parameters.filterMap fun parameter => interface? parameter.form

/-- The names that the signature of the method of an operation uses: those of its options and of
the interface in which its result ends. -/
def signatureNames (operation : Operation) : List String :=
  operation.optionsName :: (interface? operation.returnForm).toList

section Names

variable {form : TypeForm} {id name : String}

/-- Names of interfaces begin with a capital I, which the unknown type does not. -/
theorem ne_unknownType_of_head? (h : name.toList.head? = some 'I') :
    name ≠ Naming.unknownType := by
  rintro rfl
  exact absurd h (by decide)

theorem interfaceName_ne_unknownType (hid : id ≠ "") :
    Naming.interfaceName (some id) ≠ Naming.unknownType := by
  rw [Naming.interfaceName_some hid]
  exact ne_unknownType_of_head? (by simp)

theorem optionsName_ne_unknownType (operation : Operation) :
    operation.optionsName ≠ Naming.unknownType :=
  ne_unknownType_of_head? (by simp [Operation.optionsName])

theorem interface?_eq_some_iff :
    interface? form = some name ↔
      ∃ id, form.model? = some id ∧ Naming.interfaceName (some id) = name :=
  Option.map_eq_some_iff

/-- An import list is the list of the names as they are first met, without the unknown type. -/
theorem firstSeen_importList (names : List String) :
    FirstSeen (names.filter (· ≠ Naming.unknownType)) (importList names) :=
  (firstSeen_eraseDups names).filter _

/-- Where all names are known, none is left out. -/
theorem firstSeen_importList_of_known {names : List String}
    (h : ∀ name ∈ names, name ≠ Naming.unknownType) : FirstSeen names (importList names) := by
  have hall : names.filter (· ≠ Naming.unknownType) = names :=
    List.filter_eq_self.mpr fun name hname => decide_eq_true (h name hname)
  have hseen := firstSeen_importList names
  rwa [hall] at hseen

end Names

section Interfaces

variable {model : Model} {name : String}

theorem mem_fieldModels_iff {id : String} :
    id ∈ fieldModels model ↔
      ∃ property ∈ model.properties.values, property.form.model? = some id :=
  List.mem_filterMap

theorem ne_empty_of_mem_fieldModels {id : String} (h : id ∈ fieldModels model) : id ≠ "" := by
  obtain ⟨property, -, hform⟩ := mem_fieldModels_iff.mp h
  exact Property.ne_empty_of_model?_form hform

theorem firstSeen_modelImports (model : Model) :
    FirstSeen (((fieldModels model).filter fun id => some id ≠ model.id).map
      fun id => Naming.interfaceName (some id)) (modelImports model) := by
  have hrefs : model.refs = fieldModels model := by
    rw [Model.refs_eq_forms, List.filterMap_map]
    rfl
  rw [modelImports, hrefs]
  refine firstSeen_importList_of_known (List.forall_mem_map.mpr fun id hid => ?_)
  exact interfaceName_ne_unknownType (ne_empty_of_mem_fieldModels (List.mem_of_mem_filter hid))

/-- The interface of another model bears another name. -/
theorem interfaceName_eq_own_iff {id : String} (hid : id ≠ "") :
    Naming.interfaceName (some id) = model.interfaceName ↔ some id = model.id := by
  constructor
  · intro h
    exact ((nonempty?_eq_some_iff _ _).mp
      (Naming.nonempty?_of_interfaceName_eq hid h.symm)).1.symm
  · intro h
    rw [Model.interfaceName, h]

/-- An interface imports what the types of its properties end in, but not itself. -/
theorem mem_modelImports_iff :
    name ∈ modelImports model ↔ name ≠ model.interfaceName ∧
      ∃ property ∈ model.properties.values, EndsIn property.form property.typeName name := by
  rw [(firstSeen_modelImports model).mem_iff, List.mem_map]
  constructor
  · rintro ⟨id, hmem, rfl⟩
    obtain ⟨hid, hother⟩ := List.mem_filter.mp hmem
    refine ⟨mt (interfaceName_eq_own_iff (ne_empty_of_mem_fieldModels hid)).mp
      (of_decide_eq_true hother), ?_⟩
    obtain ⟨property, hproperty, hform⟩ := mem_fieldModels_iff.mp hid
    obtain ⟨n, hlayers, htype⟩ := (property_names_iff property id).mp hform
    exact ⟨property, hproperty, id, n, hlayers, htype, rfl⟩
  · rintro ⟨hother, property, hproperty, id, n, hlayers, htype, rfl⟩
    have hid : id ∈ fieldModels model := mem_fieldModels_iff.mpr
      ⟨property, hproperty, (property_names_iff property id).mpr ⟨n, hlayers, htype⟩⟩
    refine ⟨id, List.mem_filter.mpr ⟨hid, decide_eq_true ?_⟩, rfl⟩
    exact mt (interfaceName_eq_own_iff (ne_empty_of_mem_fieldModels hid)).mpr hother

end Interfaces

section Options

variable {operation : Operation} {name : String}

theorem interface?_form_of_body {parameter : Parameter}
    (h : parameter.location = some .body ∧ ¬ parameter.isEnumerated) :
    interface? parameter.form = (nonempty? parameter.type).map fun id =>
      Naming.interfaceName (some id) := by
  rw [interface?, Parameter.form_of_not_enumerated (Bool.not_eq_true _ ▸ h.2), if_pos h.1,
    model?_ofId]

theorem interface?_form_of_not_body {parameter : Parameter}
    (h : ¬ (parameter.location = some .body ∧ ¬ parameter.isEnumerated)) :
    interface? parameter.form = none := by
  have hrefs : parameter.form.model?.toList = [] := by
    rw [← Parameter.refs_eq_form, Parameter.refs, if_neg h]
  rw [interface?, Option.toList_eq_nil_iff.mp hrefs]
  rfl

/-- Of the types of the bodies those are known that name a model. -/
theorem filter_bodies (parameters : List Parameter) :
    ((parameters.filter fun parameter =>
      parameter.location = some .body ∧ ¬ parameter.isEnumerated).map fun parameter =>
        Naming.interfaceName parameter.type).filter (· ≠ Naming.unknownType) =
      parameters.filterMap fun parameter => interface? parameter.form := by
  induction parameters with
  | nil => rfl
  | cons parameter rest ih =>
    by_cases hbody : parameter.location = some .body ∧ ¬ parameter.isEnumerated
    · rw [List.filter_cons, if_pos (decide_eq_true hbody), List.map_cons, List.filterMap_cons,
        interface?_form_of_body hbody]
      cases htype : nonempty? parameter.type with
      | none =>
        have hname : Naming.interfaceName parameter.type = Naming.unknownType := by
          rw [Naming.interfaceName, htype]
        rw [hname, List.filter_cons_of_neg (by simp), ih]
        rfl
      | some id =>
        obtain ⟨hsome, hid⟩ := (nonempty?_eq_some_iff _ _).mp htype
        rw [hsome, List.filter_cons,
          if_pos (decide_eq_true (interfaceName_ne_unknownType hid)), ih]
        rfl
    · rw [List.filter_cons, if_neg (mt of_decide_eq_true hbody), ih, List.filterMap_cons,
        interface?_form_of_not_body hbody]

theorem firstSeen_optionsImports (operation : Operation) :
    FirstSeen (bodyInterfaces operation) (optionsImports operation) := by
  rw [bodyInterfaces, ← filter_bodies]
  exact firstSeen_importList _

/-- Options import the models of the bodies. -/
theorem mem_optionsImports_iff :
    name ∈ optionsImports operation ↔ ∃ parameter ∈ operation.parameters,
      parameter.location = some .body ∧ parameter.typeName = name ∧
        ∃ id, id ≠ "" ∧ Naming.interfaceName (some id) = name := by
  rw [(firstSeen_optionsImports operation).mem_iff, bodyInterfaces, List.mem_filterMap]
  refine exists_congr fun parameter => and_congr_right fun _ => ?_
  rw [interface?_eq_some_iff]
  constructor
  · rintro ⟨id, hform, rfl⟩
    have hid := Parameter.ne_empty_of_model?_form hform
    obtain ⟨hbody, htype⟩ := (parameter_names_iff parameter hid).mp hform
    exact ⟨hbody, htype, id, hid, rfl⟩
  · rintro ⟨hbody, htype, id, hid, rfl⟩
    exact ⟨id, (parameter_names_iff parameter hid).mpr ⟨hbody, htype⟩, rfl⟩

end Options

section Classes

variable {resource : Resource} {name : String}

theorem firstSeen_classImports (resource : Resource) :
    FirstSeen (resource.operations.flatMap signatureNames) (classImports resource) := by
  have hsignature (operation : Operation) : signatureNames operation = operation.optionsName ::
      operation.returnRefs.map fun id => Naming.interfaceName (some id) := by
    rw [signatureNames, Operation.returnRefs_eq_form, interface?]
    cases operation.returnForm.model? <;> rfl
  have hnames : classImports resource =
    importList (resource.operations.flatMap signatureNames) := by
    rw [classImports, funext hsignature]
  rw [hnames]
  refine firstSeen_importList_of_known (List.forall_mem_flatMap.mpr fun operation _ => ?_)
  rw [signatureNames, List.forall_mem_cons]
  refine ⟨optionsName_ne_unknownType operation, fun name hname => ?_⟩
  obtain ⟨id, hform, rfl⟩ := interface?_eq_some_iff.mp (Option.mem_toList.mp hname)
  exact interfaceName_ne_unknownType (Operation.ne_empty_of_model?_returnForm hform)

/-- A signature names the options of the operation and the model that it returns. -/
theorem mem_signatureNames_iff {operation : Operation} :
    name ∈ signatureNames operation ↔ operation.optionsName = name ∨
      EndsIn operation.returnForm operation.returnType name := by
  rw [signatureNames, List.mem_cons, Option.mem_toList, interface?_eq_some_iff]
  refine or_congr eq_comm ?_
  constructor
  · rintro ⟨id, hform, rfl⟩
    obtain ⟨n, hlayers, htype⟩ := (return_names_iff operation id).mp hform
    exact ⟨id, n, hlayers, htype, rfl⟩
  · rintro ⟨id, n, hlayers, htype, rfl⟩
    exact ⟨id, (return_names_iff operation id).mpr ⟨n, hlayers, htype⟩, rfl⟩

theorem mem_classImports_iff :
    name ∈ classImports resource ↔ ∃ target ∈ resource.targets,
      target.2.optionsName = name ∨ EndsIn target.2.returnForm target.2.returnType name := by
  rw [(firstSeen_classImports resource).mem_iff, Resource.operations, List.flatMap_map,
    List.mem_flatMap]
  exact exists_congr fun target => and_congr_right fun _ => mem_signatureNames_iff

end Classes

/-- Each list of imports has the names that its file needs, each once and in the order of first
use. An interface imports those in which the types of its members end and that are not its own
name; options import those that are types of bodies; a class imports those of the options and the
models in the signatures of its methods. -/
theorem imports_are_needed_names :
    (∀ model,
      FirstSeen (((fieldModels model).filter fun id => some id ≠ model.id).map fun id =>
        Naming.interfaceName (some id)) (interfaceOf true model).imports ∧
      ∀ name, name ∈ (interfaceOf true model).imports ↔ name ≠ model.interfaceName ∧
        ∃ property ∈ model.properties.values, EndsIn property.form property.typeName name) ∧
    (∀ operation,
      FirstSeen (bodyInterfaces operation) (optionsOf true operation).imports ∧
      ∀ name, name ∈ (optionsOf true operation).imports ↔ ∃ parameter ∈ operation.parameters,
        parameter.location = some .body ∧ parameter.typeName = name ∧
          ∃ id, id ≠ "" ∧ Naming.interfaceName (some id) = name) ∧
    ∀ resource,
      FirstSeen (resource.operations.flatMap signatureNames) (classImports resource) ∧
      ∀ docs name, name ∈ classImports resource ↔ ∃ target ∈ resource.targets,
        (methodOf docs target.1 target.2).optionsName = name ∨
          EndsIn target.2.returnForm (methodOf docs target.1 target.2).returnType name := by
  refine ⟨fun model => ⟨firstSeen_modelImports model, fun name => mem_modelImports_iff⟩,
    fun operation => ⟨firstSeen_optionsImports operation, fun name => mem_optionsImports_iff⟩,
    fun resource => ⟨firstSeen_classImports resource, fun docs name => mem_classImports_iff⟩⟩

end ApiClientGen.ImportLists
