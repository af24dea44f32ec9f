import ApiClientGen.Proofs.ImportLists
import ApiClientGen.Proofs.Warnings

/-!
The tags of simple values and of arrays. As the result of an operation such a tag names no model
of its own. A body is described by a model, so its type is taken for the id of one, also when it
is such a tag. A strict check then refuses a resource for the tag exactly if no model is kept
under it and a property refers to it or it is the type of a body.
-/
namespace ApiClientGen

/-- The tags that stand for simple values and for arrays. -/
def simpleTags : List String := primitiveTags ++ ["array"]

/-- Following the items of arrays leads from a property to its leaf. -/
inductive Property.HasLeaf : Property → Property → Prop
  | leaf {property : Property} (h : property.type = some "array" → property.items = none) :
      HasLeaf property property
  | layer {property inner leaf : Property} (harray : property.type = some "array")
      (hitems : property.items = some inner) (h : HasLeaf inner leaf) : HasLeaf property leaf

/-- The leaf of a property refers to an id. -/
def Property.RefersTo (property : Property) (id : String) : Prop :=
  ∃ leaf, property.HasLeaf leaf ∧ leaf.ref = some id

/-- An operation results in an array whose items refer to an id. -/
def Operation.ItemsReferTo (operation : Operation) (id : String) : Prop :=
  operation.type = some "array" ∧ ∃ inner, operation.items = some inner ∧ inner.RefersTo id

/-- An id is the type of a body that is not restricted to a list of values. -/
structure Parameter.IsBodyOf (parameter : Parameter) (id : String) : Prop where
  body : parameter.location = some .body
  free : parameter.isEnumerated = false
  type : parameter.type = some id

/-- A property of a model or the result of an operation refers to an id. -/
def Resource.HasReference (resource : Resource) (id : String) : Prop :=
  (∃ model ∈ resource.models.values, ∃ property ∈ model.properties.values, property.RefersTo id) ∨
    ∃ operation ∈ resource.operations, operation.ItemsReferTo id

/-- An id is the type of a body of some operation. -/
def Resource.HasBodyOf (resource : Resource) (id : String) : Prop :=
  ∃ operation ∈ resource.operations, ∃ parameter ∈ operation.parameters, parameter.IsBodyOf id

section References

variable {id tag : String} {property leaf : Property} {parameter : Parameter}
  {operation : Operation} {resource : Resource}

theorem Property.HasLeaf.refs_eq (h : property.HasLeaf leaf) :
    property.refs = (nonempty? leaf.ref).toList := by
  induction h with
  | leaf hleaf =>
    rw [Property.refs]
    intro ref inner description format enum heq
    subst heq
    cases hleaf rfl
  | @layer property inner leaf harray hitems _ ih =>
    obtain ⟨type, ref, items, description, format, enum⟩ := property
    obtain rfl : type = some "array" := harray
    obtain rfl : items = some inner := hitems
    rw [Property.refs, ih]

theorem Property.hasLeaf_self
    (h : ∀ ref inner description format enum,
      property = ⟨some "array", ref, some inner, description, format, enum⟩ → False) :
    property.HasLeaf property := by
  refine .leaf ?_
  intro harray
  obtain ⟨type, ref, items, description, format, enum⟩ := property
  obtain rfl : type = some "array" := harray
  cases items with
  | none => rfl
  | some inner => exact (h ref inner description format enum rfl).elim

theorem Property.exists_hasLeaf (property : Property) : ∃ leaf, property.HasLeaf leaf := by
  fun_induction Property.form property with
  | case1 ref inner description format enum ih =>
    obtain ⟨leaf, hleaf⟩ := ih
    exact ⟨leaf, .layer rfl rfl hleaf⟩
  | case2 property hother => exact ⟨property, Property.hasLeaf_self hother⟩
  | case3 property hother => exact ⟨property, Property.hasLeaf_self hother⟩

theorem Property.mem_refs_iff : id ∈ property.refs ↔ id ≠ "" ∧ property.RefersTo id := by
  constructor
  · intro h
    obtain ⟨leaf, hleaf⟩ := property.exists_hasLeaf
    rw [hleaf.refs_eq, Option.mem_toList, nonempty?_eq_some_iff] at h
    exact ⟨h.2, leaf, hleaf, h.1⟩
  · intro h
    obtain ⟨hid, leaf, hleaf, href⟩ := h
    rw [hleaf.refs_eq, Option.mem_toList, nonempty?_eq_some_iff]
    exact ⟨href, hid⟩

theorem Parameter.mem_refs_iff : id ∈ parameter.refs ↔ id ≠ "" ∧ parameter.IsBodyOf id := by
  unfold Parameter.refs
  by_cases hbody : parameter.location = some .body ∧ ¬ parameter.isEnumerated
  · rw [if_pos hbody, Option.mem_toList, nonempty?_eq_some_iff]
    constructor
    · intro h
      exact ⟨h.2, hbody.1, Bool.eq_false_iff.mpr hbody.2, h.1⟩
    · intro h
      exact ⟨h.2.type, h.1⟩
  · rw [if_neg hbody]
    refine iff_of_false List.not_mem_nil ?_
    intro h
    exact hbody ⟨h.2.body, Bool.eq_false_iff.mp h.2.free⟩

theorem Operation.mem_returnRefs_of_array (harray : operation.type = some "array") :
    id ∈ operation.returnRefs ↔ id ≠ "" ∧ operation.ItemsReferTo id := by
  unfold Operation.returnRefs Operation.ItemsReferTo
  rw [if_pos harray]
  cases operation.items with
  | none => simp
  | some inner => simp [harray, Property.mem_refs_iff]

theorem Operation.mem_returnRefs_of_not_array (harray : operation.type ≠ some "array") :
    id ∈ operation.returnRefs ↔ (operation.type = some id ∧ id ≠ "") ∧ id ∉ primitiveTags := by
  unfold Operation.returnRefs
  rw [if_neg harray, ← nonempty?_eq_some_iff]
  cases nonempty? operation.type with
  | none => simp
  | some tag =>
    rw [Option.some.injEq]
    by_cases hprimitive : tag ∈ primitiveTags
    · simp only [if_pos hprimitive]
      refine iff_of_false List.not_mem_nil ?_
      intro h
      exact h.2 (h.1 ▸ hprimitive)
    · simp only [if_neg hprimitive, List.mem_singleton]
      constructor
      · intro h
        exact ⟨h.symm, h ▸ hprimitive⟩
      · intro h
        exact h.1.symm

/-- The result of an operation names a model by what its items refer to, or by its own type if
that is no simple tag. -/
theorem Operation.mem_returnRefs_iff :
    id ∈ operation.returnRefs ↔
      id ≠ "" ∧ (operation.ItemsReferTo id ∨ operation.type = some id ∧ id ∉ simpleTags) := by
  by_cases harray : operation.type = some "array"
  · rw [Operation.mem_returnRefs_of_array harray, or_iff_left]
    intro h
    rw [harray, Option.some.injEq] at h
    exact h.2 (h.1 ▸ by decide)
  · have hitems : ¬ operation.ItemsReferTo id := fun h => harray h.1
    rw [Operation.mem_returnRefs_of_not_array harray, or_iff_right hitems,
      and_comm (b := id ≠ ""), and_assoc]
    refine and_congr_right fun _ => and_congr_right fun htype => ?_
    have hother : id ≠ "array" := fun heq => harray (heq ▸ htype)
    simp [simpleTags, hother]

theorem ne_empty_of_mem_simpleTags (h : tag ∈ simpleTags) : tag ≠ "" := by
  intro heq
  subst heq
  exact absurd h (by decide)

theorem Operation.mem_refs_iff_of_simple (h : tag ∈ simpleTags) :
    tag ∈ operation.refs ↔ operation.ItemsReferTo tag ∨
      ∃ parameter ∈ operation.parameters, parameter.IsBodyOf tag := by
  have hne := ne_empty_of_mem_simpleTags h
  simp only [Operation.refs, List.mem_append, List.mem_flatMap, Parameter.mem_refs_iff,
    Operation.mem_returnRefs_iff, hne, h, ne_eq, not_false_eq_true, true_and, not_true, and_false,
    or_false]
  exact or_comm

/-- A simple tag is among the references of a resource if a property refers to it or it is the
type of a body. -/
theorem Resource.mem_refs_iff_of_simple (h : tag ∈ simpleTags) :
    tag ∈ resource.refs ↔ resource.HasReference tag ∨ resource.HasBodyOf tag := by
  have hne := ne_empty_of_mem_simpleTags h
  simp only [Resource.refs, Model.refs, List.mem_append, List.mem_flatMap, Property.mem_refs_iff,
    Operation.mem_refs_iff_of_simple h, hne, ne_eq, not_false_eq_true, true_and, and_or_left,
    exists_or]
  exact or_assoc.symm

end References

namespace TagReferences

open Declaration Generate ReferenceScan Run Warnings

variable {name id : String} {resource : Resource} {world : World}

/-- A strict check of a resource fails, and an id is among those that it misses. -/
def RefusedFor (world : World) (name : String) (resource : Resource) (id : String) : Prop :=
  ∃ missing,
    Ends (checkReferences name resource true) world (.error (.dangling name missing)) world ∧
      id ∈ missing

theorem refusedFor_iff :
    RefusedFor world name resource id ↔ id ∈ resource.danglingReferences := by
  constructor
  · intro h
    obtain ⟨missing, hends, hmem⟩ := h
    obtain ⟨-, -, hfailure, -⟩ := ends_checkReferences_error_iff.mp hends
    cases hfailure
    exact hmem
  · intro h
    have hsome : resource.danglingReferences ≠ [] := List.ne_nil_of_mem h
    exact ⟨_, ends_checkReferences_error_iff.mpr ⟨rfl, hsome, rfl, rfl⟩, h⟩

theorem refusedFor_iff_of_simple {tag : String} (h : tag ∈ simpleTags) :
    RefusedFor world name resource tag ↔
      tag ∉ resource.models.keys ∧ (resource.HasReference tag ∨ resource.HasBodyOf tag) := by
  rw [refusedFor_iff, mem_danglingReferences_iff, Resource.referencedModels,
    (firstSeen_eraseDups _).mem_iff, Resource.mem_refs_iff_of_simple h]
  exact and_comm

theorem typeName_of_isBodyOf {parameter : Parameter} (h : parameter.IsBodyOf id) :
    parameter.typeName = Naming.interfaceName (some id) := by
  rw [Parameter.typeName_of_not_enumerated h.free, if_pos h.body, h.type]

/-- A simple tag names no model as the result of an operation. As the type of a body it is taken
for the id of a model, whose interface is imported. So a strict check refuses a resource for a
simple tag exactly if no model is kept under it and it is referred to or the type of a body. -/
theorem simple_tags_name_models_in_bodies {tag : String} (h : tag ∈ simpleTags) :
    (∀ operation : Operation, operation.type = some tag →
      ∀ id, id ∈ operation.returnRefs ↔ id ≠ "" ∧ operation.ItemsReferTo id) ∧
    (∀ operation : Operation, ∀ parameter ∈ operation.parameters, parameter.IsBodyOf tag →
      tag ∈ operation.refs ∧ parameter.typeName = Naming.interfaceName (some tag) ∧
        Naming.interfaceName (some tag) ∈ (optionsOf true operation).imports) ∧
    ∀ world name resource, RefusedFor world name resource tag ↔
      tag ∉ resource.models.keys ∧ (resource.HasReference tag ∨ resource.HasBodyOf tag) := by
  have hne := ne_empty_of_mem_simpleTags h
  refine ⟨?_, ?_, fun world name resource => refusedFor_iff_of_simple h⟩
  · intro operation htype id
    rw [Operation.mem_returnRefs_iff, htype, Option.some.injEq]
    refine and_congr_right fun _ => or_iff_left ?_
    intro hown
    exact hown.2 (hown.1 ▸ h)
  · intro operation parameter hparameter hbody
    have htype := typeName_of_isBodyOf hbody
    refine ⟨?_, htype, ?_⟩
    · exact (Operation.mem_refs_iff_of_simple h).mpr (.inr ⟨parameter, hparameter, hbody⟩)
    · exact ImportLists.mem_optionsImports_iff.mpr
        ⟨parameter, hparameter, hbody.body, htype, tag, hne, rfl⟩

def noteOperation : Operation where
  method := "POST"
  nickname := "addNote"
  parameters := [{ name := "text", location := some .body, type := some "string" }]

def noteResource : Resource where
  apis := [{ path := "/notes", operations := [noteOperation] }]

theorem noteResource_hasBodyOf : noteResource.HasBodyOf "string" := by
  refine ⟨noteOperation, ?_, _, List.mem_singleton_self _, rfl, rfl, rfl⟩
  exact List.mem_singleton_self _

/-- A strict check refuses that resource for the type of the body, to which nothing refers. -/
theorem string_body_is_refused :
    "string" ∈ noteOperation.refs ∧
      noteOperation.parameters.map Parameter.typeName = [Naming.interfaceName (some "string")] ∧
      ¬ noteResource.HasReference "string" ∧
      ∀ world, RefusedFor world "Notes" noteResource "string" := by
  refine ⟨by decide, by decide, ?_, ?_⟩
  · rintro (⟨model, hmodel, -⟩ | ⟨operation, hoperation, harray, -⟩)
    · cases hmodel
    · rw [List.mem_singleton.mp hoperation] at harray
      cases harray
  · intro world
    rw [refusedFor_iff_of_simple (by decide)]
    exact ⟨List.not_mem_nil, .inr noteResource_hasBodyOf⟩

/-- The type of that body is imported, and it is what a strict check of the resource misses. -/
theorem string_body_names_model :
    "string" ∈ simpleTags ∧
      Naming.interfaceName (some "string") ∈ (optionsOf true noteOperation).imports ∧
      ∀ world, RefusedFor world "Notes" noteResource "string" := by
  have hsimple : "string" ∈ simpleTags := by decide
  obtain ⟨-, hbodies, hrefused⟩ := simple_tags_name_models_in_bodies hsimple
  refine ⟨hsimple, ?_, ?_⟩
  · exact (hbodies noteOperation _ (List.mem_singleton_self _) ⟨rfl, rfl, rfl⟩).2.2
  · intro world
    apply (hrefused world "Notes" noteResource).mpr
    exact ⟨List.not_mem_nil, .inr noteResource_hasBodyOf⟩

end TagReferences

end ApiClientGen
