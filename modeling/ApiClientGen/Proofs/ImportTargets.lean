import ApiClientGen.Proofs.FinalFiles
import ApiClientGen.Proofs.SplitFiles
import ApiClientGen.Proofs.StrictRun

/-!
Where imports lead. In a strict run whose interfaces have files of their own, a resource whose
class is written was found to refer only to models that it has. What the other files import is
needed by such a resource as well: of several files of one name only the last one stays, and its
source is part of a resource that was checked. So every import leads to a file of the run.
-/
namespace ApiClientGen.ImportTargets

open Declaration FinalFiles Generate MergedResource OfflineRun OutputFiles OutputNames Run
  StrictRun Warnings

variable {settings : Settings} {resources : List Resource} {resource merged : Resource}
  {model : Model} {operation : Operation} {world after : World} {cache : Path}
  {client : Web.Client} {paths : List Path} {name : String} {source : Source}

def importedNames : Surroundings → List String
  | .inline _ _ => []
  | .imported names => names

/-- The names that a file imports from the directory of interfaces. -/
def imports (settings : Settings) : Source → List String
  | .base => []
  | .ofClass name resource =>
    importedNames (classOf settings.splitInterfaces settings.docs name resource).surroundings
  | .ofModel model => (interfaceOf settings.splitInterfaces model).imports
  | .ofOperation operation => (optionsOf settings.splitInterfaces operation).imports

def classResources (settings : Settings) (resources : List Resource) : List Resource :=
  if settings.groupClass = "" then resources else (Resource.merge? resources).toList

/-- The names of interfaces on which the files of a resource rely: of the options of its
operations and of the models to which it refers. -/
def Needs (resource : Resource) (name : String) : Prop :=
  (∃ operation ∈ resource.operations, operation.optionsName = name) ∨
    ∃ id ∈ resource.refs, Naming.interfaceName (some id) = name

section Needs

theorem of_mem_importList {names : List String} (h : name ∈ importList names) :
    name ∈ names ∧ name ≠ Naming.unknownType := by
  rw [importList, List.mem_filter, List.mem_eraseDups] at h
  simpa using h

theorem mem_refs_of_model (hmodel : model ∈ resource.models.values) {id : String}
    (hid : id ∈ model.refs) : id ∈ resource.refs :=
  List.mem_append_left _ (List.mem_flatMap.mpr ⟨model, hmodel, hid⟩)

theorem mem_refs_of_operation (hoperation : operation ∈ resource.operations) {id : String}
    (hid : id ∈ operation.refs) : id ∈ resource.refs :=
  List.mem_append_right _ (List.mem_flatMap.mpr ⟨operation, hoperation, hid⟩)

theorem needs_of_class (h : name ∈ classImports resource) : Needs resource name := by
  obtain ⟨operation, hoperation, hname⟩ := List.mem_flatMap.mp (of_mem_importList h).1
  rcases List.mem_cons.mp hname with rfl | hname
  · exact Or.inl ⟨operation, hoperation, rfl⟩
  · obtain ⟨id, hid, rfl⟩ := List.mem_map.mp hname
    exact Or.inr ⟨id, mem_refs_of_operation hoperation (List.mem_append_right _ hid), rfl⟩

theorem needs_of_model (hmodel : model ∈ resource.models.values)
    (h : name ∈ modelImports model) : Needs resource name := by
  obtain ⟨id, hid, rfl⟩ := List.mem_map.mp (of_mem_importList h).1
  exact Or.inr ⟨id, mem_refs_of_model hmodel (List.mem_of_mem_filter hid), rfl⟩

/-- A body without a type is of unknown type, and that is not imported. -/
theorem needs_of_operation (hoperation : operation ∈ resource.operations)
    (h : name ∈ optionsImports operation) : Needs resource name := by
  obtain ⟨hname, hknown⟩ := of_mem_importList h
  obtain ⟨parameter, hparameter, rfl⟩ := List.mem_map.mp hname
  rw [List.mem_filter, decide_eq_true_iff] at hparameter
  obtain ⟨hparameter, hbody⟩ := hparameter
  cases htype : nonempty? parameter.type with
  | none =>
    rw [Naming.interfaceName, htype] at hknown
    exact absurd rfl hknown
  | some id =>
    have hid : id ∈ parameter.refs := by
      rw [Parameter.refs, if_pos hbody, htype]
      exact List.mem_singleton_self id
    rw [((nonempty?_eq_some_iff _ _).mp htype).1]
    refine Or.inr ⟨id, mem_refs_of_operation hoperation ?_, rfl⟩
    exact List.mem_append_left _ (List.mem_flatMap.mpr ⟨parameter, hparameter, hid⟩)

end Needs

section ClassResources

theorem classResources_cases (h : resource ∈ classResources settings resources) :
    resource ∈ resources ∨ Resource.merge? resources = some resource := by
  rw [classResources] at h
  split at h
  · exact Or.inl h
  · exact Or.inr (Option.mem_toList.mp h)

/-- The resources whose classes are written have no other operations than those that were read. -/
theorem mem_operations_of_class (hresource : resource ∈ classResources settings resources)
    (h : operation ∈ resource.operations) :
    operation ∈ resources.flatMap Resource.operations := by
  rcases classResources_cases hresource with hmem | hmerge
  · exact List.mem_flatMap.mpr ⟨resource, hmem, h⟩
  · rwa [← operations_merged hmerge]

theorem exists_key_of_class (hresource : resource ∈ classResources settings resources)
    {id : String} (h : id ∈ resource.models.keys) :
    ∃ found ∈ resources, id ∈ found.models.keys := by
  rcases classResources_cases hresource with hmem | hmerge
  · exact ⟨resource, hmem, h⟩
  · exact (mem_keys_merged_iff hmerge).mp h

variable (hmerge : settings.groupClass ≠ "" → ∃ merged, Resource.merge? resources = some merged)
include hmerge

theorem exists_class_of_operation (h : operation ∈ resources.flatMap Resource.operations) :
    ∃ resource ∈ classResources settings resources, operation ∈ resource.operations := by
  by_cases hgroup : settings.groupClass = ""
  · rw [classResources, if_pos hgroup]
    exact List.mem_flatMap.mp h
  · obtain ⟨merged, hmerged⟩ := hmerge hgroup
    rw [classResources, if_neg hgroup, hmerged]
    exact ⟨merged, List.mem_singleton_self merged, by rwa [operations_merged hmerged]⟩

theorem exists_class_of_model {id : String} (h : lastModel? id resources = some model) :
    ∃ resource ∈ classResources settings resources, model ∈ resource.models.values := by
  by_cases hgroup : settings.groupClass = ""
  · obtain ⟨resource, hresource, hfind⟩ := exists_of_lastModel? h
    rw [classResources, if_pos hgroup]
    exact ⟨resource, hresource, OrderedMap.mem_values_of_find?_eq_some hfind⟩
  · obtain ⟨merged, hmerged⟩ := hmerge hgroup
    rw [classResources, if_neg hgroup, hmerged]
    refine ⟨merged, List.mem_singleton_self merged, ?_⟩
    rw [← find?_merged hmerged] at h
    exact OrderedMap.mem_values_of_find?_eq_some h

end ClassResources

section Sources

theorem mem_classResources_of_ofClass (h : .ofClass name resource ∈ sources settings resources) :
    resource ∈ classResources settings resources := by
  rw [sources, List.mem_cons, List.mem_append, List.mem_flatMap] at h
  rcases h with hbase | ⟨found, hfound, hsource⟩ | hgroup
  · cases hbase
  · rcases List.mem_append.mp hsource with hown | hsplit
    · rw [ownSources] at hown
      split at hown
      · rename_i hnone
        cases List.mem_singleton.mp hown
        rwa [classResources, if_pos hnone]
      · cases hown
    · rw [splitSources] at hsplit
      split at hsplit
      · simp at hsplit
      · cases hsplit
  · rw [groupSources] at hgroup
    split at hgroup
    · cases hgroup
    · rename_i hsome
      obtain ⟨merged, hmerged, heq⟩ := Option.map_eq_some_iff.mp (Option.mem_toList.mp hgroup)
      cases heq
      rw [classResources, if_neg hsome]
      exact Option.mem_toList.mpr hmerged

/-- What the last file of a name imports is needed by a resource whose class is written. -/
theorem exists_needs (hsplit : settings.splitInterfaces = true) (hkeyed : Keyed resources)
    (hmerge : settings.groupClass ≠ "" → ∃ merged, Resource.merge? resources = some merged)
    {file : FileName} (hlast : lastNamed file (sources settings resources) = some source)
    (h : name ∈ imports settings source) :
    ∃ resource ∈ classResources settings resources, Needs resource name := by
  cases source with
  | base => cases h
  | ofClass className resource =>
    refine ⟨resource, mem_classResources_of_ofClass (mem_of_lastNamed hlast), ?_⟩
    rw [imports, hsplit] at h
    exact needs_of_class h
  | ofModel model =>
    obtain ⟨id, hmodel⟩ := lastModel?_of_lastNamed hsplit hkeyed hlast
    obtain ⟨resource, hresource, hmodel⟩ := exists_class_of_model hmerge hmodel
    rw [imports, hsplit] at h
    exact ⟨resource, hresource, needs_of_model hmodel h⟩
  | ofOperation operation =>
    have hoperation := mem_of_ofOperation hsplit (mem_of_lastNamed hlast)
    obtain ⟨resource, hresource, hoperation⟩ := exists_class_of_operation hmerge hoperation
    rw [imports, hsplit] at h
    exact ⟨resource, hresource, needs_of_operation hoperation h⟩

/-- What a resource needs that has no dangling references has a file of its own. -/
theorem exists_source_of_needs (hsplit : settings.splitInterfaces = true)
    (hkeyed : Keyed resources) (hresource : resource ∈ classResources settings resources)
    (hchecked : resource.danglingReferences = []) (h : Needs resource name) :
    ∃ target ∈ sources settings resources, target.name = .ofInterface name := by
  rcases h with ⟨operation, hoperation, rfl⟩ | ⟨id, hid, rfl⟩
  · refine ⟨.ofOperation operation, ?_, rfl⟩
    have hmem :
        .ofOperation operation ∈ (sources settings resources).filter Source.isOperation := by
      rw [filter_isOperation_sources hsplit]
      exact List.mem_map_of_mem (mem_operations_of_class hresource hoperation)
    exact List.mem_of_mem_filter hmem
  · -- the check speaks of the keys of the resource; the file may come from any of its parts
    have hkey : id ∈ resource.models.keys := by
      by_contra hmissing
      have hdangling := mem_danglingReferences_iff_refs.mpr ⟨hid, hmissing⟩
      rw [hchecked] at hdangling
      cases hdangling
    obtain ⟨found, hfound, hkey⟩ := exists_key_of_class hresource hkey
    rw [← OrderedMap.find?_isSome_iff, Option.isSome_iff_exists] at hkey
    obtain ⟨model, hfind⟩ := hkey
    refine ⟨.ofModel model, ?_, ?_⟩
    · have hmem : .ofModel model ∈ (sources settings resources).filter Source.isModel := by
        rw [filter_isModel_sources hsplit]
        exact List.mem_flatMap.mpr ⟨found, hfound,
          List.mem_map_of_mem (OrderedMap.mem_values_of_find?_eq_some hfind)⟩
      exact List.mem_of_mem_filter hmem
    · rw [Source.name, Model.interfaceName, hkeyed.id_eq hfound hfind]

end Sources

section Strict

/-- What is read does not depend on how strict the check is. -/
theorem reads_checking (hreads : Reads (checking settings true) cache client world resources) :
    Reads (checking settings false) cache client world resources := by
  obtain ⟨base, prepared, listing, listed, written, wrote, hprepare, hlisting, hresources⟩ :=
    hreads
  exact ⟨base, prepared, listing, listed, written, wrote, hprepare, hlisting,
    covers_writeResources settings cache client listing listing.apis hresources⟩

/-- A strict run succeeds only where there is nothing to warn of. -/
theorem warnings_of_strict_run
    (hreads : Reads (checking settings true) cache client world resources)
    (h : Ends (runWith (checking settings true) cache client) world (.ok paths) after) :
    warnings settings resources = [] := by
  obtain ⟨found, hfound, hends⟩ := strictlyEnds_runWith (covers_runWith settings cache client h)
  obtain rfl := eq_of_reads (reads_checking hreads) hfound
  have hstrict := hends.strictEnd
  cases hwarned : warnings settings resources with
  | nil => rfl
  | cons first rest =>
    rw [hwarned] at hstrict
    obtain ⟨last, hfails⟩ := hstrict
    cases (h.unique hfails).1

theorem classWarnings_eq_nil_iff :
    classWarnings name resource = [] ↔ resource.danglingReferences = [] := by
  rw [classWarnings]
  split
  · rename_i hnil
    exact iff_of_true rfl hnil
  · rename_i hdangling
    exact iff_of_false (List.cons_ne_nil _ _) hdangling

/-- Where there is nothing to warn of, no class refers to a model that is not there. -/
theorem not_dangling_of_warnings (h : warnings settings resources = [])
    (hresource : resource ∈ classResources settings resources) :
    resource.danglingReferences = [] := by
  rw [warnings, List.append_eq_nil_iff, List.flatMap_eq_nil_iff] at h
  obtain ⟨hown, hgroup⟩ := h
  rw [classResources] at hresource
  split at hresource
  · rename_i hnone
    have hwarned := hown resource hresource
    rw [ownWarnings, if_pos hnone] at hwarned
    exact classWarnings_eq_nil_iff.mp hwarned
  · rename_i hsome
    rw [groupWarnings, if_neg hsome, List.flatMap_eq_nil_iff] at hgroup
    exact classWarnings_eq_nil_iff.mp (hgroup resource hresource)

end Strict

def targetPath (settings : Settings) (name : String) : Path :=
  (interfacesDir settings).child (name ++ ".ts")

/-- A file of a run as it stands at the end: it shows the last source of its name, and each name
that it imports has a file that the run wrote and that is there. -/
structure Resolved (settings : Settings) (resources : List Resource) (paths : List Path)
    (after : World) (path : Path) (source : Source) : Prop where
  path_eq : source.name.path settings = path
  last : lastNamed source.name (sources settings resources) = some source
  shown : after.files.read path = .ok (source.text settings).toUTF8
  targets : ∀ name ∈ imports settings source, targetPath settings name ∈ paths ∧
    ∃ content, after.files.read (targetPath settings name) = .ok content

/-- When a strict run with files for interfaces ends well, all that its files import is there. -/
theorem strict_split_run_resolves_imports (settings : Settings) (cache : Path)
    (client : Web.Client) (world after : World) (paths : List Path) (resources : List Resource)
    (hsplit : settings.splitInterfaces = true) (hstrict : settings.strictRefs = true)
    (hreads : Reads settings cache client world resources) (hkeyed : Keyed resources)
    (hslash : SlashFree resources) (hgroup : '/' ∉ settings.groupClass.toList)
    (h : Ends (runWith settings cache client) world (.ok paths) after) :
    (∀ path ∈ paths, ∃ source, Resolved settings resources paths after path source) ∧
      ∃ content, after.files.read (settings.dest.child "Api.ts") = .ok content := by
  have hplain := plainNames hgroup hkeyed hslash
  have hmerge := exists_merge_of_run hreads h
  have hchecked : ∀ resource ∈ classResources settings resources,
      resource.danglingReferences = [] := by
    have hself : checking settings true = settings := by rw [checking, ← hstrict]
    intro resource hresource
    rw [← hself] at h hreads
    exact not_dangling_of_warnings (warnings_of_strict_run hreads h) hresource
  obtain ⟨rfl, hwrites⟩ := writes_of_run hreads h
  have hread : ∀ source ∈ sources settings resources, ∃ last,
      lastNamed source.name (sources settings resources) = some last ∧
        after.files.read (source.name.path settings) = .ok (last.text settings).toUTF8 := by
    intro source hsource
    obtain ⟨last, hlast⟩ := exists_lastNamed hsource
    exact ⟨last, hlast, read_lastNamed hplain hwrites hlast⟩
  constructor
  · intro path hpath
    obtain ⟨source, hsource, rfl⟩ := List.mem_map.mp hpath
    obtain ⟨last, hlast, hshown⟩ := hread source hsource
    have hname := name_of_lastNamed hlast
    refine ⟨last, by rw [hname], by rwa [hname], hshown, ?_⟩
    intro name himport
    obtain ⟨resource, hresource, hneeds⟩ := exists_needs hsplit hkeyed hmerge hlast himport
    obtain ⟨target, htarget, htargetName⟩ :=
      exists_source_of_needs hsplit hkeyed hresource (hchecked resource hresource) hneeds
    have hpath : target.name.path settings = targetPath settings name := by
      rw [htargetName]
      rfl
    obtain ⟨final, -, hfinal⟩ := hread target htarget
    rw [← hpath]
    exact ⟨List.mem_map_of_mem htarget, _, hfinal⟩
  · obtain ⟨final, -, hfinal⟩ := hread .base (List.mem_cons_self ..)
    exact ⟨_, hfinal⟩

/-- The class of both resources imports the options and the model of the first one. -/
theorem strict_clinic_run_resolves_imports : ∃ after,
    Ends (runWith (clinicSettings "G" true) ⟨.here, []⟩ ⟨true⟩) clinicWorld
      (.ok ((drafts (clinicSettings "G" true) clinics).map Prod.fst)) after ∧
    (∀ path ∈ (drafts (clinicSettings "G" true) clinics).map Prod.fst, ∃ source,
      Resolved (clinicSettings "G" true) clinics
        ((drafts (clinicSettings "G" true) clinics).map Prod.fst) after path source) ∧
    ∃ content, after.files.read ((clinicSettings "G" true).dest.child "Api.ts") =
      .ok content := by
  obtain ⟨hreads, after, hends⟩ := run_of_atHand ⟨true⟩ (atHand_shared_clinic true)
  exact ⟨after, hends, strict_split_run_resolves_imports (clinicSettings "G" true) ⟨.here, []⟩
    ⟨true⟩ clinicWorld after _ clinics rfl rfl hreads keyed_clinics slashFree_clinics (by decide)
    hends⟩

end ApiClientGen.ImportTargets
