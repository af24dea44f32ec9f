import ApiClientGen.Proofs.TagReferences

/-!
The type of a property and the ids to which it refers, side by side. Both are found by following
the items of arrays to the same leaf. The leaf gives a type and at most one id behind it; each
layer above the leaf adds the marks of an array to the type and leaves the ids as they are. The
result of an operation lies one layer above the property that describes its items.
-/
namespace ApiClientGen

open TypeForm

/-- Following the items of arrays leads from a property through some layers to its leaf. -/
inductive Property.Reaches : Property → ℕ → Property → Prop
  | leaf {property : Property} (h : property.type = some "array" → property.items = none) :
      Reaches property 0 property
  | layer {property inner leaf : Property} {layers : ℕ} (harray : property.type = some "array")
      (hitems : property.items = some inner) (h : Reaches inner layers leaf) :
      Reaches property (layers + 1) leaf

/-- The type that a leaf gives with some array layers around it, and the ids behind that type. -/
inductive Property.Gives (leaf : Property) (layers : ℕ) : String → List String → Prop
  | model {id : String} (href : leaf.ref = some id) (hid : id ≠ "") :
      Gives leaf layers (Naming.interfaceName (some id) ++ marks layers) [id]
  | tag (href : ∀ id, leaf.ref = some id → id = "") :
      Gives leaf layers (Naming.tagType leaf.type ++ marks layers) []

namespace ArrayLayers

variable {property inner leaf last : Property} {layers other : ℕ} {operation : Operation}
  {tag : String}

theorem model?_layered (form : TypeForm) (layers : ℕ) :
    (form.layered layers).model? = form.model? := by
  induction layers with
  | zero => rfl
  | succ layers ih => rw [layered, model?, ih]

theorem exists_reaches (property : Property) : ∃ layers leaf, property.Reaches layers leaf := by
  obtain ⟨leaf, hleaf⟩ := property.exists_hasLeaf
  induction hleaf with
  | @leaf property h => exact ⟨0, property, .leaf h⟩
  | layer harray hitems _ ih =>
    obtain ⟨layers, leaf, h⟩ := ih
    exact ⟨layers + 1, leaf, .layer harray hitems h⟩

/-- Items are followed as long as there are any. -/
theorem leaf_of_reaches (h : property.Reaches layers leaf) :
    leaf.type = some "array" → leaf.items = none := by
  induction h with
  | leaf h => exact h
  | layer _ _ _ ih => exact ih

theorem reaches_unique (h : property.Reaches layers leaf) (hother : property.Reaches other last) :
    other = layers ∧ last = leaf := by
  induction h generalizing other with
  | leaf hends =>
    cases hother with
    | leaf _ => exact ⟨rfl, rfl⟩
    | layer harray hitems _ =>
      rw [hends harray] at hitems
      cases hitems
  | layer harray hitems _ ih =>
    cases hother with
    | leaf hends =>
      rw [hends harray] at hitems
      cases hitems
    | layer _ hsame hrest =>
      rw [hitems, Option.some.injEq] at hsame
      subst hsame
      obtain ⟨rfl, rfl⟩ := ih hrest
      exact ⟨rfl, rfl⟩

/-- The form of a property is that of its leaf, with the layers around it. -/
theorem form_of_reaches (h : property.Reaches layers leaf) :
    property.form = leaf.form.layered layers := by
  induction h with
  | leaf _ => rfl
  | @layer property inner leaf layers harray hitems _ ih =>
    obtain ⟨type, ref, items, description, format, enum⟩ := property
    obtain rfl : type = some "array" := harray
    obtain rfl : items = some inner := hitems
    rw [Property.form, ih, layered]

theorem form_of_leaf (h : leaf.type = some "array" → leaf.items = none) :
    leaf.form = match nonempty? leaf.ref with
      | some id => .model id
      | none => .tag leaf.type := by
  unfold Property.form
  split
  · cases h rfl
  · rfl

/-- What a leaf gives is read from its form. -/
theorem gives_of_leaf (h : leaf.type = some "array" → leaf.items = none) (layers : ℕ) :
    leaf.Gives layers (leaf.form.layered layers).text
      (leaf.form.layered layers).model?.toList := by
  rw [text_layered, model?_layered, form_of_leaf h]
  cases href : nonempty? leaf.ref with
  | some id =>
    obtain ⟨hsome, hid⟩ := (nonempty?_eq_some_iff _ _).mp href
    exact .model hsome hid
  | none =>
    refine .tag fun id hsome => ?_
    by_contra hid
    rw [(nonempty?_eq_some_iff _ _).mpr ⟨hsome, hid⟩] at href
    cases href

theorem gives_of_reaches (h : property.Reaches layers leaf) :
    leaf.Gives layers property.typeName property.refs := by
  rw [← Property.text_form, Property.refs_eq_form, form_of_reaches h]
  exact gives_of_leaf (leaf_of_reaches h) layers

section Results

theorem returnForm_of_items (harray : operation.type = some "array")
    (hitems : operation.items = some inner) : operation.returnForm = .array inner.form := by
  rw [Operation.returnForm, if_pos harray, hitems]

theorem gives_result (harray : operation.type = some "array")
    (hitems : operation.items = some inner) (h : inner.Reaches layers leaf) :
    leaf.Gives (layers + 1) operation.returnType operation.returnRefs := by
  rw [← Operation.text_returnForm, Operation.returnRefs_eq_form,
    returnForm_of_items harray hitems, form_of_reaches h]
  exact gives_of_leaf (leaf_of_reaches h) (layers + 1)

theorem result_without_items (harray : operation.type = some "array")
    (hitems : operation.items = none) :
    operation.returnType = "unknown[]" ∧ operation.returnRefs = [] := by
  rw [Operation.returnType, Operation.returnRefs, if_pos harray, if_pos harray, hitems]
  exact ⟨rfl, rfl⟩

theorem result_of_model (htype : operation.type = some tag) (hne : tag ≠ "")
    (hprimitive : tag ∉ primitiveTags) (harray : tag ≠ "array") :
    operation.returnType = Naming.interfaceName (some tag) ∧ operation.returnRefs = [tag] := by
  have hother : ¬ operation.type = some "array" := by
    rw [htype, Option.some.injEq]
    exact harray
  have htag : nonempty? operation.type = some tag := by
    rw [htype]
    exact (nonempty?_eq_some_iff _ _).mpr ⟨rfl, hne⟩
  constructor
  · rw [Operation.returnType, if_neg hother, htype]
    exact if_neg hprimitive
  · rw [Operation.returnRefs, if_neg hother, htag]
    exact if_neg hprimitive

/-- A result whose type names nothing shows its tag. -/
theorem result_of_simple (harray : operation.type ≠ some "array")
    (hsimple : ∀ tag, operation.type = some tag → tag = "" ∨ tag ∈ primitiveTags) :
    operation.returnType = Naming.tagType operation.type ∧ operation.returnRefs = [] := by
  constructor
  · rw [Operation.returnType, if_neg harray]
    cases htype : operation.type with
    | none => rfl
    | some tag =>
      obtain rfl | hprimitive := hsimple tag htype
      · rfl
      · exact if_pos hprimitive
  · refine List.eq_nil_iff_forall_not_mem.mpr fun id hid => ?_
    obtain ⟨⟨htype, hne⟩, hprimitive⟩ := (Operation.mem_returnRefs_of_not_array harray).mp hid
    exact (hsimple id htype).elim hne hprimitive

theorem getLast?_marks (text : String) (layers : ℕ) :
    (text ++ marks (layers + 1)).toList.getLast? = some ']' := by
  simp [marks]

/-- A leaf below some layers gives a type that ends with the marks of an array. -/
theorem getLast?_of_gives {type : String} {ids : List String}
    (h : leaf.Gives (layers + 1) type ids) : type.toList.getLast? = some ']' := by
  cases h with
  | model _ _ => exact getLast?_marks _ layers
  | tag _ => exact getLast?_marks _ layers

theorem returnType_of_array (harray : operation.type = some "array") :
    operation.returnType ≠ Naming.interfaceName (some "array") := by
  intro heq
  have hlast : operation.returnType.toList.getLast? = some ']' := by
    cases hitems : operation.items with
    | none => rw [(result_without_items harray hitems).1]; rfl
    | some inner =>
      obtain ⟨layers, leaf, h⟩ := exists_reaches inner
      exact getLast?_of_gives (gives_result harray hitems h)
  rw [heq] at hlast
  exact absurd hlast (by decide)

/-- The type of a result names its own tag just when the tag can be the id of a model. -/
theorem result_names_tag_iff (htype : operation.type = some tag) :
    operation.returnType = Naming.interfaceName (some tag) ∧ operation.returnRefs = [tag] ↔
      tag ≠ "" ∧ tag ∉ primitiveTags ∧ tag ≠ "array" := by
  constructor
  · rintro ⟨hname, hrefs⟩
    have hmem : tag ∈ operation.returnRefs := hrefs ▸ List.mem_singleton_self tag
    have harray : tag ≠ "array" := by
      rintro rfl
      exact returnType_of_array htype hname
    have hother : operation.type ≠ some "array" := by
      rw [htype, ne_eq, Option.some.injEq]
      exact harray
    obtain ⟨⟨-, hne⟩, hprimitive⟩ := (Operation.mem_returnRefs_of_not_array hother).mp hmem
    exact ⟨hne, hprimitive, harray⟩
  · rintro ⟨hne, hprimitive, harray⟩
    exact result_of_model htype hne hprimitive harray

end Results

/-- Types and references follow the same path. Each property has one leaf, below a number of array
layers, and the leaf gives its type and the ids to which it refers. The result of an operation is
given in the same way by its items, with one more layer; without items it is an array of what is
unknown. A result that is no array names its own tag, with that tag as the only id, just when the
tag is neither empty nor that of a simple value. -/
theorem types_and_references_in_step :
    (∀ property : Property, ∃ layers leaf, property.Reaches layers leaf ∧
      (∀ other last, property.Reaches other last → other = layers ∧ last = leaf) ∧
      leaf.Gives layers property.typeName property.refs) ∧
    ∀ operation : Operation,
      (operation.type = some "array" → ∀ inner, operation.items = some inner →
        ∃ layers leaf, inner.Reaches layers leaf ∧
          leaf.Gives (layers + 1) operation.returnType operation.returnRefs) ∧
      (operation.type = some "array" → operation.items = none →
        operation.returnType = "unknown[]" ∧ operation.returnRefs = []) ∧
      (∀ tag, operation.type = some tag →
        (operation.returnType = Naming.interfaceName (some tag) ∧ operation.returnRefs = [tag] ↔
          tag ≠ "" ∧ tag ∉ primitiveTags ∧ tag ≠ "array")) ∧
      (operation.type ≠ some "array" →
        (∀ tag, operation.type = some tag → tag = "" ∨ tag ∈ primitiveTags) →
          operation.returnType = Naming.tagType operation.type ∧ operation.returnRefs = []) := by
  refine ⟨fun property => ?_, fun operation => ⟨?_, ?_, ?_, ?_⟩⟩
  · obtain ⟨layers, leaf, h⟩ := exists_reaches property
    exact ⟨layers, leaf, h, fun _ _ hother => reaches_unique h hother, gives_of_reaches h⟩
  · intro harray inner hitems
    obtain ⟨layers, leaf, h⟩ := exists_reaches inner
    exact ⟨layers, leaf, h, gives_result harray hitems h⟩
  · exact result_without_items
  · exact fun _ htype => result_names_tag_iff htype
  · exact result_of_simple

/-- An array of pages, each an array without items; arrays of both kinds have a reference. -/
def pages : Property where
  type := some "array"
  ref := some "Book"
  items := some { type := some "array", ref := some "Page" }

def resulting (type : String) (items : Option Property) : Operation where
  method := "GET"
  nickname := "read"
  type := some type
  items := items

/-- The items of an array hide its own reference, and an array without items is a leaf. -/
theorem results_of_each_kind :
    (∃ layers leaf, pages.Reaches layers leaf ∧
      leaf.Gives (layers + 1) (resulting "array" (some pages)).returnType
        (resulting "array" (some pages)).returnRefs) ∧
    (resulting "array" (some pages)).returnType = "IPage[][]" ∧
    (resulting "array" (some pages)).returnRefs = ["Page"] ∧
    ((resulting "array" none).returnType = "unknown[]" ∧
      (resulting "array" none).returnRefs = []) ∧
    ((resulting "Page" none).returnType = Naming.interfaceName (some "Page") ∧
      (resulting "Page" none).returnRefs = ["Page"]) ∧
    ((resulting "integer" none).returnType = Naming.tagType (some "integer") ∧
      (resulting "integer" none).returnRefs = []) := by
  have hresult := types_and_references_in_step.2
  refine ⟨(hresult (resulting "array" (some pages))).1 rfl pages rfl, by decide, by decide,
    (hresult (resulting "array" none)).2.1 rfl rfl, ?_, ?_⟩
  · exact ((hresult (resulting "Page" none)).2.2.1 "Page" rfl).mpr (by decide)
  · refine (hresult (resulting "integer" none)).2.2.2 (by decide) fun tag htag => .inr ?_
    cases htag
    decide

end ArrayLayers

end ApiClientGen
