import ApiClientGen.Proofs.ReferenceScan
import ApiClientGen.Proofs.Warnings

/-!
Several resources as one. The merged resource has the operations of all parts, one after the
other, and for each id the model of the last part that has one. So it refers to nothing to which
no part refers, and it answers every id that some part answers: merging creates no dangling
reference.
-/
namespace ApiClientGen.MergedResource

open Generate ReferenceScan Run Warnings

variable {first merged : Resource} {resources rest : List Resource} {id : String} {model : Model}

/-- The model of an id in the last of some resources that has one. -/
def lastModel? (id : String) : List Resource → Option Model
  | [] => none
  | resource :: rest => (lastModel? id rest).or (resource.models.find? id)

/-- The last resource that has a model of some id decides. -/
theorem find?_foldl_absorb (id : String) (first : Resource) (rest : List Resource) :
    (rest.foldl Resource.absorb first).models.find? id =
      (lastModel? id rest).or (first.models.find? id) := by
  induction rest generalizing first with
  | nil => rfl
  | cons resource rest ih =>
    have habsorb : (first.absorb resource).models.find? id =
        (resource.models.find? id).or (first.models.find? id) :=
      OrderedMap.find?_putAll first.models resource.models id
    rw [List.foldl_cons, ih, habsorb, lastModel?, Option.or_assoc]

theorem targets_absorb (first further : Resource) :
    (first.absorb further).targets = first.targets ++ further.targets := by
  rw [Resource.targets, Resource.absorb, List.flatMap_append]
  rfl

/-- Operations are lined up, resource by resource. -/
theorem targets_foldl_absorb (first : Resource) (rest : List Resource) :
    (rest.foldl Resource.absorb first).targets =
      first.targets ++ rest.flatMap Resource.targets := by
  induction rest generalizing first with
  | nil => rw [List.foldl_nil, List.flatMap_nil, List.append_nil]
  | cons resource rest ih =>
    rw [List.foldl_cons, ih, targets_absorb, List.flatMap_cons, List.append_assoc]

theorem exists_merge? (first : Resource) (rest : List Resource) :
    ∃ merged, Resource.merge? (first :: rest) = some merged :=
  ⟨rest.foldl Resource.absorb first, rfl⟩

theorem exists_of_lastModel? (h : lastModel? id resources = some model) :
    ∃ resource ∈ resources, resource.models.find? id = some model := by
  induction resources with
  | nil => cases h
  | cons resource rest ih =>
    rw [lastModel?, Option.or_eq_some_iff] at h
    rcases h with hrest | ⟨-, hfirst⟩
    · obtain ⟨found, hmem, hfind⟩ := ih hrest
      exact ⟨found, List.mem_cons_of_mem _ hmem, hfind⟩
    · exact ⟨resource, List.mem_cons_self .., hfirst⟩

/-- A model is found exactly if one of the resources has its id. -/
theorem lastModel?_isSome_iff :
    (lastModel? id resources).isSome ↔ ∃ resource ∈ resources, id ∈ resource.models.keys := by
  induction resources with
  | nil => simp [lastModel?]
  | cons resource rest ih =>
    rw [lastModel?, Option.isSome_or, Bool.or_eq_true, ih, OrderedMap.find?_isSome_iff]
    simp only [List.mem_cons, exists_eq_or_imp]
    exact or_comm

section Merged

variable (h : Resource.merge? resources = some merged)
include h

/-- In the merged resource the last model of an id counts. -/
theorem find?_merged (id : String) : merged.models.find? id = lastModel? id resources := by
  cases resources with
  | nil => cases h
  | cons first rest =>
    cases h
    rw [find?_foldl_absorb, lastModel?]

theorem targets_merged : merged.targets = resources.flatMap Resource.targets := by
  cases resources with
  | nil => cases h
  | cons first rest =>
    cases h
    rw [targets_foldl_absorb, List.flatMap_cons]

theorem operations_merged : merged.operations = resources.flatMap Resource.operations := by
  rw [Resource.operations, targets_merged h, List.map_flatMap]
  rfl

theorem mem_keys_merged_iff :
    id ∈ merged.models.keys ↔ ∃ resource ∈ resources, id ∈ resource.models.keys := by
  rw [← OrderedMap.find?_isSome_iff, find?_merged h, lastModel?_isSome_iff]

theorem exists_of_mem_values (hmodel : model ∈ merged.models.values) :
    ∃ resource ∈ resources, model ∈ resource.models.values := by
  obtain ⟨id, hfind⟩ := (merged.models.mem_values_iff model).mp hmodel
  rw [find?_merged h] at hfind
  obtain ⟨resource, hresource, hmodel⟩ := exists_of_lastModel? hfind
  exact ⟨resource, hresource, OrderedMap.mem_values_of_find?_eq_some hmodel⟩

/-- A merged resource refers to nothing to which none of its parts refers. -/
theorem exists_of_mem_refs (hid : id ∈ merged.refs) :
    ∃ resource ∈ resources, id ∈ resource.refs := by
  rw [Resource.refs, List.mem_append, List.mem_flatMap, List.mem_flatMap] at hid
  rcases hid with ⟨model, hmodel, hid⟩ | ⟨operation, hoperation, hid⟩
  · obtain ⟨resource, hresource, hmodel⟩ := exists_of_mem_values h hmodel
    refine ⟨resource, hresource, ?_⟩
    exact List.mem_append_left _ (List.mem_flatMap.mpr ⟨model, hmodel, hid⟩)
  · rw [operations_merged h] at hoperation
    obtain ⟨resource, hresource, hoperation⟩ := List.mem_flatMap.mp hoperation
    refine ⟨resource, hresource, ?_⟩
    exact List.mem_append_right _ (List.mem_flatMap.mpr ⟨operation, hoperation, hid⟩)

end Merged

/-- What dangles is referred to and has no model. -/
theorem mem_danglingReferences_iff_refs {resource : Resource} :
    id ∈ resource.danglingReferences ↔ id ∈ resource.refs ∧ id ∉ resource.models.keys := by
  rw [mem_danglingReferences_iff, Resource.referencedModels,
    (firstSeen_eraseDups resource.refs).mem_iff]

/-- The strict check of a resource finds nothing and changes nothing, whatever the class is called
and wherever the check is made. -/
def PassesCheck (resource : Resource) : Prop :=
  ∀ name world, Ends (checkReferences name resource true) world (.ok []) world

theorem passesCheck_iff {resource : Resource} :
    PassesCheck resource ↔ resource.danglingReferences = [] := by
  constructor
  · intro h
    by_contra hne
    have hpasses := h "" ownerWorld
    rw [checkReferences_strict hne] at hpasses
    cases (ends_throw_iff.mp hpasses).1
  · intro h name world
    rw [checkReferences_of_nil h]
    exact ends_pure_iff.mpr ⟨rfl, rfl⟩

/-- Resources that are not none can be merged. An id that dangles in the merged resource dangles
in one of its parts, and no part has a model of that id; so if each part passes the strict check,
the merged resource passes it. -/
theorem merged_dangles_only_as_parts (first : Resource) (rest : List Resource) :
    ∃ merged, Resource.merge? (first :: rest) = some merged ∧
      (∀ id ∈ merged.danglingReferences,
        (∃ resource ∈ first :: rest, id ∈ resource.danglingReferences) ∧
          ∀ resource ∈ first :: rest, id ∉ resource.models.keys) ∧
      ((∀ resource ∈ first :: rest, PassesCheck resource) → PassesCheck merged) := by
  obtain ⟨merged, hmerge⟩ := exists_merge? first rest
  have hparts : ∀ id ∈ merged.danglingReferences,
      (∃ resource ∈ first :: rest, id ∈ resource.danglingReferences) ∧
        ∀ resource ∈ first :: rest, id ∉ resource.models.keys := by
    intro id hid
    obtain ⟨hrefs, hkeys⟩ := mem_danglingReferences_iff_refs.mp hid
    have hnone : ∀ resource ∈ first :: rest, id ∉ resource.models.keys := by
      intro resource hresource hkey
      exact hkeys ((mem_keys_merged_iff hmerge).mpr ⟨resource, hresource, hkey⟩)
    obtain ⟨resource, hresource, hmem⟩ := exists_of_mem_refs hmerge hrefs
    refine ⟨⟨resource, hresource, ?_⟩, hnone⟩
    exact mem_danglingReferences_iff_refs.mpr ⟨hmem, hnone resource hresource⟩
  refine ⟨merged, hmerge, hparts, fun hpass => passesCheck_iff.mpr ?_⟩
  apply List.eq_nil_iff_forall_not_mem.mpr
  intro id hid
  obtain ⟨⟨resource, hresource, hdangling⟩, -⟩ := hparts id hid
  rw [passesCheck_iff.mp (hpass resource hresource)] at hdangling
  cases hdangling

end ApiClientGen.MergedResource
