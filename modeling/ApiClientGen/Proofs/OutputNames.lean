import ApiClientGen.Proofs.OutputFiles
import Mathlib.Data.List.Nodup

/-!
When the files of a run get names of their own. A file replaces the one that is there, so two
files of one name leave the text of the last one. As long as no name holds a slash, the paths
differ exactly when the names do, and then every text that was written is there at the end.
-/
namespace ApiClientGen.OutputNames

open FilePlaces FileTree Generate KeptDocuments OutputFiles Run

variable {settings : Settings} {resources : List Resource}

/-- The name of a generated file without its extension: of a class, or of an interface that has a
file of its own. -/
inductive FileName
  | ofClass (stem : String)
  | ofInterface (stem : String)
  deriving DecidableEq

namespace FileName

def stem : FileName → String
  | ofClass stem => stem
  | ofInterface stem => stem

def directory (settings : Settings) : FileName → Path
  | ofClass _ => settings.dest
  | ofInterface _ => interfacesDir settings

def path (settings : Settings) (name : FileName) : Path :=
  (name.directory settings).child (name.stem ++ ".ts")

/-- A name that does not lead to another directory. -/
def Plain (name : FileName) : Prop := '/' ∉ name.stem.toList

end FileName

def resourceNames (settings : Settings) (resource : Resource) : List FileName :=
  (if settings.groupClass = "" then [.ofClass (Naming.className resource)] else []) ++
  (if settings.splitInterfaces then
    resource.models.values.map (.ofInterface ·.interfaceName) ++
      resource.operations.map (.ofInterface ·.optionsName)
  else [])

def fileNames (settings : Settings) (resources : List Resource) : List FileName :=
  .ofClass "Api" :: (resources.flatMap (resourceNames settings) ++
    if settings.groupClass = "" then []
    else ((Resource.merge? resources).map fun _ => .ofClass settings.groupClass).toList)

theorem resourcePaths_eq (settings : Settings) (resource : Resource) :
    (resourceDrafts settings resource).map Prod.fst =
      (resourceNames settings resource).map (FileName.path settings) := by
  rw [resourceDrafts, ownDrafts, splitDrafts, resourceNames, List.map_append, List.map_append]
  congr 1
  · split
    · simp [FileName.path, FileName.directory, FileName.stem]
    · rfl
  · split
    · simp [interfaceDrafts, Function.comp_def, FileName.path, FileName.directory, FileName.stem]
    · rfl

theorem paths_eq (settings : Settings) (resources : List Resource) :
    (drafts settings resources).map Prod.fst =
      (fileNames settings resources).map (FileName.path settings) := by
  rw [drafts, fileNames, List.map_cons, List.map_cons, List.map_append, List.map_append,
    List.map_flatMap, List.map_flatMap]
  congr 1
  congr 1
  · simp only [resourcePaths_eq]
  · rw [groupDrafts]
    split
    · rfl
    · cases Resource.merge? resources with
      | none => rfl
      | some merged => simp [FileName.path, FileName.directory, FileName.stem]

theorem isOutput_of_mem_drafts {draft : Draft} (h : draft ∈ drafts settings resources) :
    IsOutput draft.1 := by
  have hpath : draft.1 ∈ (drafts settings resources).map Prod.fst := List.mem_map_of_mem h
  rw [paths_eq, List.mem_map] at hpath
  obtain ⟨name, -, hname⟩ := hpath
  rw [← hname]
  exact isOutput_child (name.directory settings) name.stem

theorem isPart_ts (stem : String) : Path.isPart (stem ++ ".ts").toList = true := by
  rw [String.toList_append]
  cases stem.toList with
  | nil => rfl
  | cons c rest => simp [Path.isPart]

theorem placeOf_directory (tree : FileTree) (name : FileName) :
    tree.placeOf (name.directory settings) = tree.placeOf settings.dest ++
      match name with
      | .ofClass _ => []
      | .ofInterface _ => ["interfaces"] := by
  cases name with
  | ofClass stem => exact (List.append_nil _).symm
  | ofInterface stem => exact placeOf_child tree settings.dest (by decide) (by decide) (by decide)

theorem FileName.Plain.slash_not_mem {name : FileName} (h : name.Plain) :
    '/' ∉ (name.stem ++ ".ts").toList := by
  rw [String.toList_append, List.mem_append]
  rintro (hmem | hmem)
  · exact h hmem
  · revert hmem
    decide

theorem placeOf_path (tree : FileTree) {name : FileName} (h : name.Plain) :
    tree.placeOf (name.path settings) =
      tree.placeOf (name.directory settings) ++ [name.stem ++ ".ts"] :=
  placeOf_child tree _ h.slash_not_mem (isPart_ts name.stem) (ts_ne_points name.stem)

/-- Plain names of different files lead to different places. -/
theorem eq_of_placeOf_eq (tree : FileTree) {first second : FileName} (hfirst : first.Plain)
    (hsecond : second.Plain)
    (h : tree.placeOf (first.path settings) = tree.placeOf (second.path settings)) :
    first = second := by
  rw [placeOf_path tree hfirst, placeOf_path tree hsecond, placeOf_directory, placeOf_directory,
    List.append_assoc, List.append_assoc, List.append_cancel_left_eq] at h
  cases first <;> cases second <;>
    simp_all [FileName.stem]

/-- A class name is made of characters of identifiers. -/
theorem plain_className (resource : Resource) :
    (FileName.ofClass (Naming.className resource)).Plain := by
  intro hmem
  exact absurd (Naming.isIdentifierChar_of_mem_className hmem) (by decide)

/-- None of the names that the settings and the resources give to files holds a slash. Class names
never do. -/
structure PlainNames (settings : Settings) (resources : List Resource) : Prop where
  group : '/' ∉ settings.groupClass.toList
  models : ∀ resource ∈ resources, ∀ model ∈ resource.models.values,
    '/' ∉ model.interfaceName.toList
  operations : ∀ resource ∈ resources, ∀ operation ∈ resource.operations,
    '/' ∉ operation.optionsName.toList

theorem PlainNames.plain (h : PlainNames settings resources) :
    ∀ name ∈ fileNames settings resources, name.Plain := by
  intro name hname
  rw [fileNames, List.mem_cons, List.mem_append, List.mem_flatMap] at hname
  rcases hname with rfl | ⟨resource, hresource, hname⟩ | hname
  · rw [FileName.Plain]
    decide
  · rw [resourceNames, List.mem_append] at hname
    rcases hname with hname | hname
    · split at hname
      · rw [List.mem_singleton.mp hname]
        exact plain_className resource
      · cases hname
    · split at hname
      · rw [List.mem_append, List.mem_map, List.mem_map] at hname
        rcases hname with ⟨model, hmodel, rfl⟩ | ⟨operation, hoperation, rfl⟩
        · exact h.models resource hresource model hmodel
        · exact h.operations resource hresource operation hoperation
      · cases hname
  · split at hname
    · cases hname
    · rw [Option.mem_toList, Option.map_eq_some_iff] at hname
      obtain ⟨merged, -, rfl⟩ := hname
      exact h.group

theorem nodup_places (tree : FileTree) (h : PlainNames settings resources)
    (hnodup : (fileNames settings resources).Nodup) :
    (((fileNames settings resources).map (FileName.path settings)).map tree.placeOf).Nodup := by
  rw [List.map_map]
  refine hnodup.map_on ?_
  intro first hfirst second hsecond hplace
  exact eq_of_placeOf_eq tree (h.plain first hfirst) (h.plain second hsecond) hplace

/-- With plain names a path occurs twice exactly if a name does. -/
theorem nodup_paths_iff (h : PlainNames settings resources) :
    ((fileNames settings resources).map (FileName.path settings)).Nodup ↔
      (fileNames settings resources).Nodup := by
  constructor
  · exact List.Nodup.of_map _
  · intro hnodup
    exact (nodup_places ⟨[], OrderedMap.empty⟩ h hnodup).of_map

/-- What a run wrote: its list and its count are those of the drafts of the resources that it
read, and a text is there at the end unless a later one went to the same place. -/
structure Written (settings : Settings) (resources : List Resource) (paths : List Path)
    (after : World) : Prop where
  paths_eq : paths = (drafts settings resources).map Prod.fst
  counted : ∃ said, after.stdout =
    said ++ s!"Generated {paths.length} files in {settings.dest}" ++ "\n"
  read_last : ∀ front draft back, drafts settings resources = front ++ draft :: back →
    (∀ other ∈ back, after.files.placeOf other.1 ≠ after.files.placeOf draft.1) →
      after.files.read draft.1 = .ok draft.2.toUTF8
  nodup_iff : PlainNames settings resources →
    (paths.Nodup ↔ (fileNames settings resources).Nodup)
  read_all : PlainNames settings resources → paths.Nodup →
    (paths.map after.files.placeOf).Nodup ∧
      ∀ draft ∈ drafts settings resources, after.files.read draft.1 = .ok draft.2.toUTF8

/-- A run that succeeds wrote the files of the resources that it read. As long as their names are
plain, it lists no path twice exactly when all these names differ, and then it lost no text. -/
theorem written_of_run (settings : Settings) (client : Web.Client) (world after : World)
    (paths : List Path) (h : Ends (run settings client) world (.ok paths) after) :
    ∃ resources, Reads settings settings.cacheDir client world resources ∧
      Written settings resources paths after := by
  obtain ⟨resources, hreads, rfl, hwrites, hcounted⟩ := ends_runWith_ok h
  have hlast : ∀ front draft back, drafts settings resources = front ++ draft :: back →
      (∀ other ∈ back, after.files.placeOf other.1 ≠ after.files.placeOf draft.1) →
        after.files.read draft.1 = .ok draft.2.toUTF8 := by
    intro front draft back hdrafts hback
    have hmem : draft ∈ drafts settings resources := by
      rw [hdrafts]
      exact List.mem_append_right front (List.mem_cons_self ..)
    have hplaces : ∀ path, after.files.placeOf path = world.files.placeOf path :=
      hwrites.grows.placeOf_eq
    rw [hdrafts] at hwrites
    refine hwrites.read_eq (isOutput_of_mem_drafts hmem) ?_
    intro other hother
    rw [← hplaces, ← hplaces]
    exact hback other hother
  refine ⟨resources, hreads, rfl, hcounted, hlast, ?_, ?_⟩
  · intro hplain
    rw [paths_eq]
    exact nodup_paths_iff hplain
  · intro hplain hnodup
    rw [paths_eq] at hnodup ⊢
    have hplaces := nodup_places after.files hplain ((nodup_paths_iff hplain).mp hnodup)
    refine ⟨hplaces, ?_⟩
    intro draft hdraft
    obtain ⟨front, back, hdrafts⟩ := List.append_of_mem hdraft
    refine hlast front draft back hdrafts ?_
    intro other hother hplace
    rw [← paths_eq, hdrafts, List.map_append, List.map_append, List.map_cons,
      List.map_cons] at hplaces
    have hback := (List.nodup_cons.mp (List.nodup_append.mp hplaces).2.1).1
    apply hback
    rw [← hplace]
    exact List.mem_map_of_mem (List.mem_map_of_mem hother)

theorem written_of_repeating_run : ∃ after resources,
    Ends (run repeatingSettings ⟨false⟩) repeatingWorld (.ok repeatedPaths) after ∧
      Reads repeatingSettings repeatingSettings.cacheDir ⟨false⟩ repeatingWorld resources ∧
        Written repeatingSettings resources repeatedPaths after := by
  obtain ⟨after, hends⟩ := ends_run_repeating
  obtain ⟨resources, hreads, hwritten⟩ :=
    written_of_run repeatingSettings ⟨false⟩ repeatingWorld after repeatedPaths hends
  exact ⟨after, resources, hends, hreads, hwritten⟩

/-- A resource that is named twice is written twice, to the same path. -/
theorem repeating_run_lists_path_twice :
    (∃ after, Ends (run repeatingSettings ⟨false⟩) repeatingWorld (.ok repeatedPaths) after) ∧
      ¬ repeatedPaths.Nodup :=
  ⟨ends_run_repeating, by decide⟩

end ApiClientGen.OutputNames
