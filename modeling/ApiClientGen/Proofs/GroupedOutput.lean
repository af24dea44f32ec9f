import ApiClientGen.Proofs.TwinRuns

/-!
A run with one class for all resources and with files for interfaces. Each resource still gives
its interfaces, so that the later one of two files of a name stays; and in the merged resource the
later one of two models of an id stays. Both choose the same: the files of interfaces show the
merged resource, and they are those of the run with a class for each resource.
-/
namespace ApiClientGen.GroupedOutput

open Declaration FilePlaces FileTree FinalFiles Generate MergedResource OfflineRun OutputFiles
  OutputNames Run TwinRuns

variable {settings : Settings} {resources : List Resource} {merged : Resource} {model : Model}
  {operation : Operation} {tree : FileTree} {place : FilePlace} {id : String}

/-- No interface of options has the name of the interface of a model. -/
def NamesApart (resources : List Resource) : Prop :=
  ∀ operation ∈ resources.flatMap Resource.operations,
    ∀ model ∈ resources.flatMap fun resource => resource.models.values,
      operation.optionsName ≠ model.interfaceName

section Files

variable (hsplit : settings.splitInterfaces = true) (hapart : NamesApart resources)
  (hmerge : Resource.merge? resources = some merged)
include hsplit hapart hmerge

/-- The last file of the name of a merged model is made from it. -/
theorem lastNamed_of_merged (hkeyed : Keyed resources)
    (h : merged.models.find? id = some model) :
    lastNamed (interfaceFile id) (sources settings resources) = some (.ofModel model) := by
  rw [find?_merged hmerge] at h
  obtain ⟨resource, hresource, hfind⟩ := exists_of_lastModel? h
  refine lastNamed_of_lastModel? hsplit hkeyed ?_ h
  intro operation hoperation heq
  refine hapart operation hoperation model ?_ ?_
  · exact List.mem_flatMap.mpr ⟨resource, hresource, OrderedMap.mem_values_of_find?_eq_some hfind⟩
  · rw [heq, Model.interfaceName, hkeyed.id_eq hresource hfind]

/-- The last file of the name of merged options is made from the last operation that has it. -/
theorem exists_lastNamed_of_merged (hoperation : operation ∈ merged.operations) :
    ∃ last, lastOperation operation.optionsName merged.operations = some last ∧
      lastNamed (.ofInterface operation.optionsName) (sources settings resources) =
        some (.ofOperation last) := by
  have hfound : (lastOperation operation.optionsName merged.operations).isSome := by
    rw [lastOperation, List.find?_isSome]
    exact ⟨operation, List.mem_reverse.mpr hoperation, by simp⟩
  obtain ⟨last, hlast⟩ := Option.isSome_iff_exists.mp hfound
  refine ⟨last, hlast, ?_⟩
  rw [operations_merged hmerge] at hlast hoperation
  refine lastNamed_of_lastOperation hsplit ?_ hlast
  intro resource hresource model hmodel heq
  exact hapart operation hoperation model
    (List.mem_flatMap.mpr ⟨resource, hresource, hmodel⟩) heq.symm

end Files

theorem placeOf_interfacesDir (tree : FileTree) (settings : Settings) :
    tree.placeOf (interfacesDir settings) = tree.placeOf settings.dest ++ ["interfaces"] :=
  placeOf_child tree settings.dest (by decide) (by decide) (by decide)

/-- No file of a class lies in the directory of interfaces. -/
theorem not_mem_classPlaces (h : tree.placeOf (interfacesDir settings) <+: place) :
    place ∉ classPlaces (tree.placeOf settings.dest) := by
  rintro ⟨stem, rfl⟩
  rw [placeOf_interfacesDir, List.prefix_append_right_inj, List.cons_prefix_cons] at h
  -- the directory would have the name of a class file
  have hsuffix : ".ts".toList <:+ "interfaces".toList := by
    rw [h.1, String.toList_append]
    exact List.suffix_append _ _
  exact absurd hsuffix (by decide)

/-- The files of interfaces show the merged resource: for each of its ids its model, and for each
name of options the last of its operations that has it. -/
structure ShowsMerged (settings : Settings) (merged : Resource) (tree : FileTree) : Prop where
  models : ∀ id model, merged.models.find? id = some model →
    tree.read ((interfaceFile id).path settings) = .ok (interfaceText true model).toUTF8
  options : ∀ operation ∈ merged.operations, ∃ last,
    lastOperation operation.optionsName merged.operations = some last ∧
      tree.read ((FileName.ofInterface operation.optionsName).path settings) =
        .ok (optionsText true last).toUTF8

/-- At the end of a run with a class for all resources and with files for interfaces these show
the merged resource. The run in the same world that has a class for each resource reads the same
resources and leaves the directory of interfaces as this one does. -/
theorem grouped_interfaces_agree_with_merge (settings : Settings) (cache : Path)
    (client : Web.Client) (world after : World) (paths : List Path) (resources : List Resource)
    (hsplit : settings.splitInterfaces = true) (hgroup : settings.groupClass ≠ "")
    (hplainGroup : '/' ∉ settings.groupClass.toList)
    (hreads : Reads settings cache client world resources) (hkeyed : Keyed resources)
    (hslash : SlashFree resources) (hapart : NamesApart resources)
    (h : Ends (runWith settings cache client) world (.ok paths) after) :
    (∃ merged, Resource.merge? resources = some merged ∧
      ShowsMerged settings merged after.files) ∧
    ∀ others last, Ends (runWith (ungrouped settings) cache client) world (.ok others) last →
      Reads (ungrouped settings) cache client world resources ∧
        ∀ place, after.files.placeOf (interfacesDir settings) <+: place →
          after.files.node? place = last.files.node? place := by
  have hplain := plainNames hplainGroup hkeyed hslash
  obtain ⟨-, hwrites⟩ := writes_of_run hreads h
  constructor
  · obtain ⟨merged, hmerge⟩ := exists_merge_of_run hreads h hgroup
    refine ⟨merged, hmerge, ?_, ?_⟩
    · intro id model hmodel
      have hlast := lastNamed_of_merged hsplit hapart hmerge hkeyed hmodel
      have hread := read_lastNamed hplain hwrites hlast
      rwa [Source.text, hsplit] at hread
    · intro operation hoperation
      obtain ⟨last, hlast, hnamed⟩ :=
        exists_lastNamed_of_merged hsplit hapart hmerge hoperation
      have hread := read_lastNamed hplain hwrites hnamed
      rw [Source.text, hsplit] at hread
      exact ⟨last, hlast, hread⟩
  · intro others last hungrouped
    obtain ⟨hsame, htwins⟩ := twins_of_runs hsplit hgroup hplain hreads h hungrouped
    refine ⟨hsame, fun place hplace => htwins.node?_eq place ?_⟩
    rw [← hwrites.grows.placeOf_eq]
    exact not_mem_classPlaces hplace

theorem namesApart_clinics : NamesApart clinics := by
  have hoperations : clinics.flatMap Resource.operations = [getPet] := rfl
  have hmodels : (clinics.flatMap fun resource => resource.models.values) =
      [barePet, fullPet] := rfl
  have hoptions : getPet.optionsName = "IGetOptions" := by cbv
  rw [NamesApart, hoperations, hmodels, List.forall_mem_singleton, hoptions, List.forall_mem_cons,
    List.forall_mem_singleton]
  decide

/-- The merged resource has the model of the second resource, and so has the file of both. -/
theorem grouped_clinic_interfaces_agree_with_merge : ∃ merged after last,
    Resource.merge? clinics = some merged ∧
    Ends (runWith (clinicSettings "G" false) ⟨.here, []⟩ ⟨true⟩) clinicWorld
      (.ok ((drafts (clinicSettings "G" false) clinics).map Prod.fst)) after ∧
    ShowsMerged (clinicSettings "G" false) merged after.files ∧
    Ends (runWith (clinicSettings "" false) ⟨.here, []⟩ ⟨true⟩) clinicWorld
      (.ok ((drafts (clinicSettings "" false) clinics).map Prod.fst)) last ∧
    ∀ place, after.files.placeOf (interfacesDir (clinicSettings "G" false)) <+: place →
      after.files.node? place = last.files.node? place := by
  obtain ⟨hreads, after, hends⟩ := run_of_atHand ⟨true⟩ (atHand_shared_clinic false)
  obtain ⟨-, last, hungrouped⟩ := run_of_atHand ⟨true⟩ (atHand_own_clinic false)
  obtain ⟨⟨merged, hmerge, hshows⟩, hsame⟩ :=
    grouped_interfaces_agree_with_merge (clinicSettings "G" false) ⟨.here, []⟩ ⟨true⟩ clinicWorld
      after _ clinics rfl (by decide) (by decide) hreads keyed_clinics slashFree_clinics
      namesApart_clinics hends
  exact ⟨merged, after, last, hmerge, hends, hshows, hungrouped, (hsame _ last hungrouped).2⟩

end ApiClientGen.GroupedOutput
