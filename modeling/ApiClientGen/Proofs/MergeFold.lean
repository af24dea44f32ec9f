import ApiClientGen.Declaration.ClientClass
import ApiClientGen.Proofs.FailureCauses
import ApiClientGen.Proofs.MergedResource

/-!
Merging as a fold. Taking in a further resource is associative, so that resources may be merged in
groups first. The merged resource has the operations of all parts one after the other. A model is
that of the last part that has its id, and it stands where its id came first.

Models of one id become one model; operations of one nickname stay as they are. So a merged
resource repeats a nickname, a method or options exactly if one of its parts does or two of its
parts share one.
-/
namespace ApiClientGen.MergeFold

open Declaration FailureCauses Generate MergedResource ReferenceScan Run

variable {resources : List Resource} {merged : Resource} {id : String} {model : Model}

section Associative

theorem absorb_absorb (first second third : Resource) :
    (first.absorb second).absorb third = first.absorb (second.absorb third) := by
  have hmodels : (first.models.putAll second.models.entries).putAll third.models.entries =
      first.models.putAll (second.models.putAll third.models.entries).entries :=
    (OrderedMap.putAll_putAll first.models second.models third.models.entries).symm
  simp only [Resource.absorb, hmodels, List.append_assoc]

instance : Std.Associative Resource.absorb := ⟨absorb_absorb⟩

theorem merge?_cons (first : Resource) (rest : List Resource) :
    Resource.merge? (first :: rest) = some (rest.foldl Resource.absorb first) := rfl

/-- The front of a list may be merged first. -/
theorem merge?_front {front : Resource} (h : Resource.merge? resources = some front)
    (others : List Resource) :
    Resource.merge? (front :: others) = Resource.merge? (resources ++ others) := by
  cases resources with
  | nil => cases h
  | cons first rest =>
    cases h
    rw [merge?_cons, List.cons_append, merge?_cons, List.foldl_append]

/-- Two parts of a list may be merged first. -/
theorem merge?_groups {front back : Resource} {others : List Resource}
    (h : Resource.merge? resources = some front) (hothers : Resource.merge? others = some back) :
    Resource.merge? [front, back] = Resource.merge? (resources ++ others) := by
  rw [← merge?_front h]
  cases others with
  | nil => cases hothers
  | cons second rest =>
    cases hothers
    rw [merge?_cons, merge?_cons, List.foldl_cons, List.foldl_nil, List.foldl_cons]
    exact congrArg some List.foldl_assoc.symm

theorem merge?_eq_none_iff : Resource.merge? resources = none ↔ resources = [] := by
  cases resources with
  | nil => exact ⟨fun _ => rfl, fun _ => rfl⟩
  | cons first rest => simp [merge?_cons]

/-- A run fails for want of resources to merge exactly if a class for all resources is asked for
and there is none. -/
theorem ends_writeGroup_nothing_iff {settings : Settings} {world after : World} :
    Ends (writeGroup settings resources) world (.error .nothingToMerge) after ↔
      settings.groupClass ≠ "" ∧ resources = [] ∧ after = world := by
  constructor
  · intro h
    obtain ⟨hgroup, -⟩ := ends_writeGroup_error h
    rw [writeGroup, if_neg hgroup] at h
    cases hmerge : Resource.merge? resources with
    | none =>
      rw [hmerge] at h
      exact ⟨hgroup, merge?_eq_none_iff.mp hmerge, (ends_throw_iff.mp h).2⟩
    | some merged =>
      rw [hmerge] at h
      rcases ends_writeClass_error h with ⟨⟨-, -, heq⟩, -⟩ | ⟨error, heq, -⟩ <;> cases heq
  · rintro ⟨hgroup, rfl, rfl⟩
    rw [writeGroup, if_neg hgroup, Resource.merge?]
    exact ends_throw_iff.mpr ⟨rfl, rfl⟩

end Associative

section LastWins

/-- The last model of an id stands in the last resource that has one. -/
theorem lastModel?_eq_some_iff : lastModel? id resources = some model ↔
    ∃ front resource back, resources = front ++ resource :: back ∧
      resource.models.find? id = some model ∧ ∀ later ∈ back, id ∉ later.models.keys := by
  induction resources with
  | nil => simp [lastModel?]
  | cons resource rest ih =>
    rw [lastModel?, Option.or_eq_some_iff]
    constructor
    · rintro (hlast | ⟨hnone, hfind⟩)
      · obtain ⟨front, found, back, rfl, hfind, hback⟩ := ih.mp hlast
        exact ⟨resource :: front, found, back, rfl, hfind, hback⟩
      · refine ⟨[], resource, rest, rfl, hfind, ?_⟩
        intro later hlater hmem
        have hsome : (lastModel? id rest).isSome :=
          lastModel?_isSome_iff.mpr ⟨later, hlater, hmem⟩
        rw [hnone] at hsome
        cases hsome
    · rintro ⟨front, found, back, hsplit, hfind, hback⟩
      cases front with
      | nil =>
        obtain ⟨rfl, rfl⟩ := List.cons.inj hsplit
        refine Or.inr ⟨?_, hfind⟩
        rw [← Option.not_isSome_iff_eq_none, lastModel?_isSome_iff]
        rintro ⟨later, hlater, hmem⟩
        exact hback later hlater hmem
      | cons first front =>
        obtain ⟨-, rfl⟩ := List.cons.inj hsplit
        exact Or.inl (ih.mpr ⟨front, found, back, rfl, hfind, hback⟩)

section Keys

variable {α : Type} {seen : List String} {m : OrderedMap String α}

theorem firstSeen_put (h : FirstSeen seen m.keys) (key : String) (value : α) :
    FirstSeen (seen ++ [key]) (m.put key value).keys := by
  rw [OrderedMap.keys_put]
  split
  · rename_i hkey
    exact h.append_known ((h.mem_iff key).mp hkey)
  · rename_i hkey
    exact h.append_new fun hseen => hkey ((h.mem_iff key).mpr hseen)

/-- Keys stand in the order in which they were first put. -/
theorem firstSeen_putAll (h : FirstSeen seen m.keys) (entries : List (String × α)) :
    FirstSeen (seen ++ entries.map Prod.fst) (m.putAll entries).keys := by
  induction entries generalizing seen m with
  | nil =>
    rw [List.map_nil, List.append_nil]
    exact h
  | cons entry rest ih =>
    rw [List.map_cons, ← List.singleton_append, ← List.append_assoc]
    exact ih (firstSeen_put h entry.1 entry.2)

end Keys

theorem firstSeen_of_nodup {α : Type} [DecidableEq α] {kept : List α} (h : kept.Nodup) :
    FirstSeen kept kept := by
  induction kept using List.reverseRecOn with
  | nil => exact ⟨List.nodup_nil, fun _ => Iff.rfl, List.Pairwise.nil⟩
  | append_singleton kept last ih =>
    obtain ⟨hkept, -, hlast⟩ := List.nodup_append.mp h
    exact (ih hkept).append_new fun hmem =>
      hlast last hmem last (List.mem_singleton_self last) rfl

theorem firstSeen_foldl_absorb (first : Resource) (rest : List Resource) :
    FirstSeen ((first :: rest).flatMap fun resource => resource.models.keys)
      (rest.foldl Resource.absorb first).models.keys := by
  induction rest using List.reverseRecOn with
  | nil =>
    rw [List.flatMap_singleton]
    exact firstSeen_of_nodup first.models.nodup
  | append_singleton rest last ih =>
    rw [← List.cons_append, List.flatMap_append, List.flatMap_singleton, List.foldl_concat]
    exact firstSeen_putAll ih last.models.entries

theorem foldl_absorb_eq (first : Resource) (rest : List Resource) :
    rest.foldl Resource.absorb first = { first with
      apis := (first :: rest).flatMap Resource.apis
      models := (rest.foldl Resource.absorb first).models } := by
  induction rest using List.reverseRecOn with
  | nil => rw [List.foldl_nil, List.flatMap_singleton]
  | append_singleton rest last ih =>
    rw [← List.cons_append, List.flatMap_append, List.flatMap_singleton, List.foldl_concat,
      Resource.absorb, ih]

structure MergesTo (resources : List Resource) (merged : Resource) : Prop where
  targets_eq : merged.targets = resources.flatMap Resource.targets
  find?_iff : ∀ id model, merged.models.find? id = some model ↔
    ∃ front resource back, resources = front ++ resource :: back ∧
      resource.models.find? id = some model ∧ ∀ later ∈ back, id ∉ later.models.keys
  keys_firstSeen : FirstSeen (resources.flatMap fun resource => resource.models.keys)
    merged.models.keys
  rest_eq : ∃ first, resources.head? = some first ∧ merged = { first with
    apis := resources.flatMap Resource.apis
    models := merged.models }

theorem mergesTo_foldl_absorb (first : Resource) (rest : List Resource) :
    MergesTo (first :: rest) (rest.foldl Resource.absorb first) := by
  refine ⟨targets_merged (merge?_cons first rest), ?_, firstSeen_foldl_absorb first rest,
    first, rfl, foldl_absorb_eq first rest⟩
  intro id model
  rw [find?_merged (merge?_cons first rest), lastModel?_eq_some_iff]

end LastWins

/-- Resources that are not none can be merged, in groups as well as one after the other, and a
single one stays as it is. Without resources there is nothing to merge, and then a run that asks
for a class of all of them fails. -/
theorem merge_is_associative_fold (first second : Resource) (rest others : List Resource) :
    (∃ front back whole, Resource.merge? (first :: rest) = some front ∧
      Resource.merge? (second :: others) = some back ∧
      Resource.merge? (first :: rest ++ second :: others) = some whole ∧
      Resource.merge? ([front] ++ second :: others) = some whole ∧
      Resource.merge? [front, back] = some whole ∧
      MergesTo (first :: rest) front ∧ MergesTo (first :: rest ++ second :: others) whole) ∧
    Resource.merge? [first] = some first ∧
    (∀ resources, Resource.merge? resources = none ↔ resources = []) ∧
    ∀ settings resources world after,
      Ends (writeGroup settings resources) world (.error .nothingToMerge) after ↔
        settings.groupClass ≠ "" ∧ resources = [] ∧ after = world := by
  refine ⟨?_, rfl, fun _ => merge?_eq_none_iff, fun _ _ _ _ => ends_writeGroup_nothing_iff⟩
  have hfront := merge?_cons first rest
  have hback := merge?_cons second others
  have hwhole := merge?_cons first (rest ++ second :: others)
  refine ⟨_, _, _, hfront, hback, hwhole, ?_, ?_, mergesTo_foldl_absorb _ _,
    mergesTo_foldl_absorb _ _⟩
  · rw [List.singleton_append, merge?_front hfront]
    exact hwhole
  · rw [merge?_groups hfront hback]
    exact hwhole

section Repeats

/-- No two of some resources have operations of one name. -/
def Apart (name : Operation → String) (resources : List Resource) : Prop :=
  resources.Pairwise fun earlier later =>
    (earlier.operations.map name).Disjoint (later.operations.map name)

/-- A merged resource repeats a name exactly if a part does or two parts share one. -/
theorem nodup_operations_merged_iff (h : Resource.merge? resources = some merged)
    (name : Operation → String) :
    (merged.operations.map name).Nodup ↔
      (∀ resource ∈ resources, (resource.operations.map name).Nodup) ∧ Apart name resources := by
  rw [operations_merged h, List.map_flatMap, List.nodup_flatMap]
  rfl

def declaredOptions (file : ClientClass) : List Options :=
  match file.surroundings with
  | .inline _ options => options
  | .imported _ => []

variable (docs : Bool) (name : String) (resource : Resource)

theorem name_methods_classOf (split : Bool) :
    (classOf split docs name resource).methods.map Method.name =
      resource.operations.map Operation.methodName := by
  rw [classOf, List.map_map, Resource.operations, List.map_map]
  rfl

theorem name_declaredOptions_classOf :
    (declaredOptions (classOf false docs name resource)).map Options.name =
      resource.operations.map Operation.optionsName := by
  rw [declaredOptions, classOf, if_neg Bool.false_ne_true, List.map_map]
  rfl

end Repeats

/-- Resources of which none repeats a nickname become one that has the operations of all. It
repeats a nickname exactly if two of them share one. Its class repeats a method exactly if the
class of one of them does or two of them share a method, and so it is with the options that it
declares; beside files for the interfaces it declares none. -/
theorem merged_repeats_iff_shared (first : Resource) (rest : List Resource)
    (hdistinct : ∀ resource ∈ first :: rest,
      (resource.operations.map Operation.nickname).Nodup) :
    ∃ merged, Resource.merge? (first :: rest) = some merged ∧
      merged.operations = (first :: rest).flatMap Resource.operations ∧
      ((merged.operations.map Operation.nickname).Nodup ↔
        Apart Operation.nickname (first :: rest)) ∧
      ∀ docs name,
        (∀ split, ((classOf split docs name merged).methods.map Method.name).Nodup ↔
          (∀ resource ∈ first :: rest,
            ((classOf split docs name resource).methods.map Method.name).Nodup) ∧
          Apart Operation.methodName (first :: rest)) ∧
        (((declaredOptions (classOf false docs name merged)).map Options.name).Nodup ↔
          (∀ resource ∈ first :: rest,
            ((declaredOptions (classOf false docs name resource)).map Options.name).Nodup) ∧
          Apart Operation.optionsName (first :: rest)) ∧
        declaredOptions (classOf true docs name merged) = [] := by
  obtain ⟨merged, hmerge⟩ := exists_merge? first rest
  refine ⟨merged, hmerge, operations_merged hmerge, ?_,
    fun docs name => ⟨fun split => ?_, ?_, rfl⟩⟩
  · rw [nodup_operations_merged_iff hmerge]
    exact and_iff_right hdistinct
  · simp only [name_methods_classOf]
    exact nodup_operations_merged_iff hmerge Operation.methodName
  · simp only [name_declaredOptions_classOf]
    exact nodup_operations_merged_iff hmerge Operation.optionsName

def singleResource (path nickname : String) : Resource where
  apis := [{ path := path, operations := [{ method := "GET", nickname := nickname }] }]

/-- Two resources that share no nickname, and a class of both that has a method twice: the first
letter of a method is a small one. -/
theorem methods_repeat_apart_nicknames :
    ∃ merged, Resource.merge? [singleResource "/a" "get", singleResource "/b" "Get"] =
      some merged ∧
      (merged.operations.map Operation.nickname).Nodup ∧
      ¬ ((classOf false true "Group" merged).methods.map Method.name).Nodup := by
  have hdistinct : ∀ resource ∈ [singleResource "/a" "get", singleResource "/b" "Get"],
      (resource.operations.map Operation.nickname).Nodup := by
    decide
  obtain ⟨merged, hmerge, -, hnicknames, hclass⟩ := merged_repeats_iff_shared _ _ hdistinct
  refine ⟨merged, hmerge, hnicknames.mpr ?_, fun hmethods => ?_⟩
  · simp [Apart, singleResource, Resource.operations, Resource.targets, Api.targets]
  · obtain ⟨-, hapart⟩ := ((hclass true "Group").1 false).mp hmethods
    have hget : Operation.methodName { method := "GET", nickname := "get" } = "get" := by cbv
    have hlower : Operation.methodName { method := "GET", nickname := "Get" } = "get" := by cbv
    simp [Apart, singleResource, Resource.operations, Resource.targets, Api.targets, hget,
      hlower] at hapart

/-- Two resources, each with one operation, that share a nickname: merged they repeat it, and the
class of both has a method and options twice. -/
theorem merged_repeats_shared_nickname :
    (∀ resource ∈ [singleResource "/a" "get", singleResource "/b" "get"],
      (resource.operations.map Operation.nickname).Nodup) ∧
    ∃ merged, Resource.merge? [singleResource "/a" "get", singleResource "/b" "get"] =
      some merged ∧
      ¬ (merged.operations.map Operation.nickname).Nodup ∧
      ¬ ((classOf false true "Group" merged).methods.map Method.name).Nodup ∧
      ¬ ((declaredOptions (classOf false true "Group" merged)).map Options.name).Nodup := by
  refine ⟨by decide, _, rfl, by decide, ?_, ?_⟩
  · rw [name_methods_classOf]
    simp [singleResource, Resource.absorb, Resource.operations, Resource.targets, Api.targets]
  · rw [name_declaredOptions_classOf]
    simp [singleResource, Resource.absorb, Resource.operations, Resource.targets, Api.targets]

end ApiClientGen.MergeFold
