import ApiClientGen.Declaration.Method
import Mathlib.Data.List.Nodup
import Mathlib.Data.List.Sublists

/-!
The groups of the options of an operation. They deal out the parameters that have a location, each
to the group of its location, and a group may be left out when none of its parameters is required.
The options as a whole may be left out when no parameter is required. A parameter without a
location is in no group, so that one that is required keeps the options although no group asks for
them.
-/
namespace ApiClientGen.ParameterGroups

open Declaration

/-- The parameters that stand in a group. -/
structure Share where
  location : Location
  parameters : List Parameter

def Share.group (share : Share) : OptionGroup :=
  ⟨share.location, share.parameters.map optionMemberOf⟩

/-- Parameters are dealt out by location: each that has one is in one share, that of its location,
as often as it was given, and those of a share stand in the order in which they were given. -/
structure DealsOut (parameters : List Parameter) (shares : List Share) : Prop where
  placed : ∀ parameter ∈ parameters, ∀ location, parameter.location = some location →
    ∃ share ∈ shares, share.location = location ∧
      share.parameters.count parameter = parameters.count parameter ∧
      ∀ other ∈ shares, parameter ∈ other.parameters → other = share
  left_out : ∀ parameter ∈ parameters,
    (∀ share ∈ shares, parameter ∉ share.parameters) ↔ parameter.location = none
  ordered : ∀ share ∈ shares, share.parameters.Sublist parameters
  nonempty : ∀ share ∈ shares, share.parameters ≠ []

def fieldOrder : List (Location × String) :=
  [(.body, "body"), (.query, "query"), (.path, "params"), (.header, "headerParams"),
    (.form, "form")]

section Shares

def shareAt (operation : Operation) (location : Location) : Share :=
  ⟨location, operation.parameters.filter fun parameter => parameter.location = some location⟩

def sharesOf (operation : Operation) : List Share :=
  (groupOrder.map (shareAt operation)).filter fun share => !share.parameters.isEmpty

variable {operation : Operation} {parameter : Parameter} {location : Location} {share : Share}

theorem mem_groupOrder (location : Location) : location ∈ groupOrder := by
  cases location <;> decide

theorem mem_shareAt_iff :
    parameter ∈ (shareAt operation location).parameters ↔
      parameter ∈ operation.parameters ∧ parameter.location = some location := by
  rw [shareAt, List.mem_filter, decide_eq_true_eq]

theorem count_filter_eq (keep : Parameter → Bool) (parameters : List Parameter)
    (parameter : Parameter) :
    (parameters.filter keep).count parameter =
      if keep parameter then parameters.count parameter else 0 := by
  split
  · rename_i hkeep
    exact List.count_filter hkeep
  · rename_i hdrop
    exact List.count_eq_zero.mpr fun hmem => hdrop (List.mem_filter.mp hmem).2

theorem mem_sharesOf_iff :
    share ∈ sharesOf operation ↔
      share = shareAt operation share.location ∧ share.parameters ≠ [] := by
  rw [sharesOf, List.mem_filter, List.mem_map, Bool.not_eq_true', ← Bool.not_eq_true,
    List.isEmpty_iff]
  refine and_congr_left fun _ => ⟨?_, fun h => ?_⟩
  · rintro ⟨location, -, rfl⟩
    rfl
  · exact ⟨share.location, mem_groupOrder share.location, h.symm⟩

theorem location_of_mem (hshare : share ∈ sharesOf operation)
    (hmem : parameter ∈ share.parameters) : parameter.location = some share.location := by
  rw [(mem_sharesOf_iff.mp hshare).1, mem_shareAt_iff] at hmem
  exact hmem.2

theorem shareAt_mem_sharesOf (hparameter : parameter ∈ operation.parameters)
    (hlocation : parameter.location = some location) :
    shareAt operation location ∈ sharesOf operation :=
  mem_sharesOf_iff.mpr
    ⟨rfl, List.ne_nil_of_mem (mem_shareAt_iff.mpr ⟨hparameter, hlocation⟩)⟩

theorem groupAt?_eq (operation : Operation) (location : Location) :
    groupAt? operation location =
      (Option.guard (fun share => !share.parameters.isEmpty) (shareAt operation location)).map
        Share.group := by
  rw [groupAt?, Option.guard, shareAt]
  cases operation.parameters.filter fun parameter => parameter.location = some location <;> rfl

theorem groupsOf_eq (operation : Operation) :
    groupsOf operation = (sharesOf operation).map Share.group := by
  rw [groupsOf, funext (groupAt?_eq operation), ← List.map_filterMap, sharesOf,
    ← List.filterMap_eq_filter, List.filterMap_map]
  rfl

theorem dealsOut_sharesOf (operation : Operation) :
    DealsOut operation.parameters (sharesOf operation) where
  placed parameter hparameter location hlocation := by
    refine ⟨shareAt operation location, shareAt_mem_sharesOf hparameter hlocation, rfl, ?_, ?_⟩
    · exact List.count_filter (decide_eq_true hlocation)
    · intro other hother hmem
      have hsame := (location_of_mem hother hmem).symm.trans hlocation
      rw [(mem_sharesOf_iff.mp hother).1, Option.some.inj hsame]
  left_out parameter hparameter := by
    constructor
    · intro hout
      by_contra hsome
      obtain ⟨location, hlocation⟩ := Option.ne_none_iff_exists'.mp hsome
      exact hout _ (shareAt_mem_sharesOf hparameter hlocation)
        (mem_shareAt_iff.mpr ⟨hparameter, hlocation⟩)
    · intro hnone share hshare hmem
      rw [location_of_mem hshare hmem] at hnone
      exact Option.some_ne_none _ hnone
  ordered share hshare := by
    rw [(mem_sharesOf_iff.mp hshare).1]
    exact List.filter_sublist
  nonempty share hshare := (mem_sharesOf_iff.mp hshare).2

/-- A share without parameters adds none. -/
theorem parameters_filter_nonempty (shares : List Share) :
    (shares.filter fun share => !share.parameters.isEmpty).flatMap Share.parameters =
      shares.flatMap Share.parameters := by
  induction shares with
  | nil => rfl
  | cons share rest ih =>
    rw [List.filter_cons, List.flatMap_cons]
    split
    · rw [List.flatMap_cons, ih]
    · rename_i hempty
      rw [Bool.not_eq_true', Bool.not_eq_false, List.isEmpty_iff] at hempty
      rw [hempty, List.nil_append, ih]

/-- Taken together the shares are the parameters that have a location. -/
theorem perm_located (operation : Operation) :
    ((sharesOf operation).flatMap Share.parameters).Perm
      (operation.parameters.filter fun parameter => parameter.location.isSome) := by
  rw [sharesOf, parameters_filter_nonempty, List.flatMap_map, List.perm_iff_count]
  intro parameter
  simp only [groupOrder, shareAt, List.flatMap_cons, List.flatMap_nil, List.append_nil,
    List.count_append, count_filter_eq]
  cases parameter.location with
  | none => rfl
  | some location => cases location <;> simp

theorem fields_sublist (operation : Operation) :
    ((groupsOf operation).map fun group => (group.location, group.field)).Sublist fieldOrder := by
  have hfields : (groupOrder.map (shareAt operation)).map
      (fun share => (share.location, share.group.field)) = fieldOrder := by
    rw [List.map_map]
    rfl
  rw [groupsOf_eq, List.map_map, sharesOf, ← hfields]
  exact List.filter_sublist.map _

end Shares

section Optional

variable {operation : Operation}

theorem optional_group_iff (share : Share) :
    share.group.optional = true ↔ ∀ parameter ∈ share.parameters, parameter.required = false := by
  simp [Share.group, OptionGroup.optional, optionMemberOf]

theorem optionsOptional_iff :
    optionsOptional operation = true ↔
      ∀ parameter ∈ operation.parameters, parameter.required = false := by
  simp [optionsOptional]

/-- The groups may all be left out when no parameter that has a location is required. -/
theorem optional_groups_iff :
    (∀ group ∈ groupsOf operation, group.optional = true) ↔
      ∀ parameter ∈ operation.parameters, parameter.location ≠ none →
        parameter.required = false := by
  rw [groupsOf_eq, List.forall_mem_map]
  simp only [optional_group_iff]
  constructor
  · intro h parameter hparameter hsome
    obtain ⟨location, hlocation⟩ := Option.ne_none_iff_exists'.mp hsome
    exact h _ (shareAt_mem_sharesOf hparameter hlocation) parameter
      (mem_shareAt_iff.mpr ⟨hparameter, hlocation⟩)
  · intro h share hshare parameter hmem
    have hlocation := location_of_mem hshare hmem
    refine h parameter (((dealsOut_sharesOf operation).ordered share hshare).mem hmem) ?_
    rw [hlocation]
    exact Option.some_ne_none _

end Optional

/-- The groups of an operation deal out its parameters by location. Each stands under the field of
its location, in the fixed order of the fields and so none twice, and may be left out if none of
its parameters is required. -/
theorem groups_deal_out_parameters (operation : Operation) :
    ∃ shares, groupsOf operation = shares.map Share.group ∧
      DealsOut operation.parameters shares ∧
      (shares.map fun share => (share.location, share.group.field)).Sublist fieldOrder ∧
      (shares.map fun share => share.group.field).Nodup ∧
      ∀ share ∈ shares, share.group.optional = true ↔
        ¬ ∃ parameter ∈ share.parameters, parameter.required = true := by
  have hfields := fields_sublist operation
  rw [groupsOf_eq, List.map_map] at hfields
  have hnodup : (fieldOrder.map Prod.snd).Nodup := by decide
  refine ⟨sharesOf operation, groupsOf_eq operation, dealsOut_sharesOf operation, hfields, ?_, ?_⟩
  · have hnames := (hfields.map Prod.snd).nodup hnodup
    rwa [List.map_map] at hnames
  · intro share _
    simp [optional_group_iff]

/-- The options may be left out if each group of theirs may be, and no parameter that is in no
group is required. -/
theorem options_left_out_iff (docs split : Bool) (path : String) (operation : Operation) :
    (methodOf docs path operation).optionsOptional = true ↔
      (∀ group ∈ (optionsOf split operation).groups, group.optional = true) ∧
        ∀ parameter ∈ operation.parameters, parameter.location = none →
          parameter.required = false := by
  have hgroups : (optionsOf split operation).groups = groupsOf operation := rfl
  have hmethod : (methodOf docs path operation).optionsOptional = optionsOptional operation := rfl
  rw [hgroups, hmethod, optional_groups_iff, optionsOptional_iff, ← forall₂_and]
  refine forall₂_congr fun parameter _ => ?_
  by_cases hnone : parameter.location = none <;> simp [hnone]

/-- An operation whose parameter is required and has no location. -/
def unplacedOperation : Operation where
  method := "GET"
  nickname := "getPet"
  parameters := [{ name := "id", required := true, type := some "integer" }]

/-- A parameter without a location keeps the options although they have no group. -/
theorem unplaced_parameter_keeps_options :
    ¬ ∀ docs split path operation,
      (methodOf docs path operation).optionsOptional = true ↔
        ∀ group ∈ (optionsOf split operation).groups, group.optional = true := by
  intro h
  have hgroups : (optionsOf false unplacedOperation).groups = [] := rfl
  have hiff := h false false "/pets" unplacedOperation
  rw [hgroups] at hiff
  exact absurd (hiff.mpr (List.forall_mem_nil _)) (by decide)

end ApiClientGen.ParameterGroups
