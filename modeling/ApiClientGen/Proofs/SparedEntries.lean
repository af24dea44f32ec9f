import ApiClientGen.Proofs.FileContents
import Mathlib.Logic.Relation

/-!
Generated files and kept documents. A run is a chain of steps, each of which keeps a document,
writes a generated file, or writes no file. The name of a generated file has a point, whatever the
names in the documents are, and the name under which a document is kept has none; so wherever the
two kinds of files lie, no generated file takes the place of a document. What stands at the place
of a document is at the end what it was, or what the run kept there.
-/
namespace ApiClientGen.SparedEntries

open FileContents FilePlaces FileTree Generate KeptDocuments OutputFiles OutputNames Run RunEffect
  RunSteps

variable {settings : Settings} {cache path : Path} {client : Web.Client} {url : String}
  {action : Run Path} {world between after : World}

/-- The drafts of a run besides the base class. The names in them may be any texts. -/
inductive Generated (settings : Settings) : Draft → Prop
  | ofClass (name : String) (resource : Resource) :
    Generated settings (classDraft settings name resource)
  | ofModel (model : Model) : Generated settings (interfaceDraft settings model)
  | ofOptions (operation : Operation) : Generated settings (optionsDraft settings operation)

/-- A file that runs write: where it lies, and the action that writes it. -/
inductive Writing (settings : Settings) : Path → Run Path → Prop
  | base : Writing settings (settings.dest.child baseFile) (writeBase settings.dest)
  | text {draft : Draft} : Generated settings draft →
    Writing settings draft.1 (writeText draft.1 draft.2)

/-- What stands at the place where the document of a URL is kept. -/
def kept? (cache : Path) (tree : FileTree) (url : String) : Option ByteArray :=
  content? tree (tree.placeOf (Cache.pathFor cache url))

/-- A step of a run: printing, asking the server, making directories and failing; keeping a
document; and writing a file, whether that succeeds or fails. -/
inductive Step (settings : Settings) (cache : Path) (client : Web.Client) : World → World → Prop
  | idle {before after : World} : Acts ∅ before after → Step settings cache client before after
  | keep {url : String} {body : ByteArray} {before after : World} :
    Stored cache client url body before after → Step settings cache client before after
  | write {path : Path} {action : Run Path} {outcome : Except Failure Path}
    {before after : World} : Writing settings path action → Ends action before outcome after →
      Step settings cache client before after

/-- Some steps, one after the other. -/
abbrev Steps (settings : Settings) (cache : Path) (client : Web.Client) : World → World → Prop :=
  Relation.ReflTransGen (Step settings cache client)

/-- In the course of some steps a document is kept under the key of a URL. -/
def KeptBetween (settings : Settings) (cache : Path) (client : Web.Client) (url : String)
    (body : ByteArray) (world after : World) : Prop :=
  ∃ other asked kept, Cache.key other = Cache.key url ∧ Steps settings cache client world asked ∧
    Stored cache client other body asked kept ∧ Steps settings cache client kept after

section Paths

/-- A document is kept directly in the directory of the cache, whatever its URL looks like. -/
theorem parent_pathFor (cache : Path) (hkey : Cache.key url ≠ "") :
    (Cache.pathFor cache url).parent = cache := by
  rw [pathFor_eq cache hkey, Path.parent, List.dropLast_concat]

theorem Generated.isOutput {draft : Draft} (h : Generated settings draft) : IsOutput draft.1 := by
  cases h with
  | ofClass name resource => exact isOutput_classDraft settings name resource
  | ofModel model =>
    rw [interfaceDraft_fst]
    exact isOutput_child (interfacesDir settings) model.interfaceName
  | ofOptions operation =>
    rw [optionsDraft_fst]
    exact isOutput_child (interfacesDir settings) operation.optionsName

theorem Writing.isOutput (h : Writing settings path action) : IsOutput path := by
  cases h with
  | base => exact isOutput_base settings.dest
  | text hdraft => exact hdraft.isOutput

/-- The path of a generated file leads elsewhere than that of a kept document. -/
theorem Writing.placeOf_ne (h : Writing settings path action) (cache : Path)
    (hkey : Cache.key url ≠ "") (tree : FileTree) :
    tree.placeOf path ≠ tree.placeOf (Cache.pathFor cache url) := by
  intro heq
  apply not_outputPlace_pathFor tree cache hkey
  rw [← heq]
  exact outputPlace_placeOf tree h.isOutput

theorem Writing.path_ne (h : Writing settings path action) (cache : Path)
    (hkey : Cache.key url ≠ "") : path ≠ Cache.pathFor cache url := by
  rintro rfl
  exact not_isOutput_pathFor cache hkey h.isOutput

end Paths

section Entries

theorem kept?_eq_of_acts {written : Set FilePlace} (h : Acts written world after)
    (hplace : world.files.placeOf (Cache.pathFor cache url) ∉ written) :
    kept? cache after.files url = kept? cache world.files url := by
  rw [kept?, kept?, h.grows.placeOf_eq]
  exact content?_eq_of_grows h.grows hplace

/-- The actions write where their paths lead. -/
theorem Writing.acts (h : Writing settings path action) {outcome : Except Failure Path}
    (hends : Ends action world outcome after) : Acts {world.files.placeOf path} world after := by
  cases h with
  | base =>
    rw [writeBase_eq] at hends
    exact acts_of_writeText hends
  | text => exact acts_of_writeText hends

/-- Generating a file leaves what is kept as it was, also where it fails. -/
theorem Writing.kept?_eq (h : Writing settings path action) {outcome : Except Failure Path}
    (hends : Ends action world outcome after) (cache : Path) (hkey : Cache.key url ≠ "") :
    kept? cache after.files url = kept? cache world.files url := by
  apply kept?_eq_of_acts (h.acts hends)
  rw [Set.mem_singleton_iff]
  exact (h.placeOf_ne cache hkey world.files).symm

/-- One step changes what is kept for a URL only by keeping a document under its key. -/
theorem Step.kept?_cases (h : Step settings cache client world after)
    (hkey : Cache.key url ≠ "") :
    kept? cache after.files url = kept? cache world.files url ∨
      ∃ other body, Cache.key other = Cache.key url ∧ Stored cache client other body world after ∧
        kept? cache after.files url = some body := by
  cases h with
  | idle hacts => exact .inl (kept?_eq_of_acts hacts (Set.notMem_empty _))
  | @keep other body _ _ hstored =>
    by_cases hsame : Cache.key other = Cache.key url
    · refine .inr ⟨other, body, hsame, hstored, ?_⟩
      have hpath : Cache.pathFor cache url = Cache.pathFor cache other := by
        rw [Cache.pathFor, Cache.pathFor, hsame]
      rw [kept?, hpath]
      exact content?_of_read hstored.read_eq
    · refine .inl (kept?_eq_of_acts hstored.acts ?_)
      rw [Set.mem_singleton_iff]
      exact (placeOf_pathFor_ne world.files cache hkey hsame).symm
  | write hwriting hends => exact .inl (hwriting.kept?_eq hends cache hkey)

/-- Many steps change what is kept for a URL only by keeping documents under its key; what is kept
in the end is one of them. -/
theorem kept?_cases_of_steps (h : Steps settings cache client world after)
    (hkey : Cache.key url ≠ "") :
    kept? cache after.files url = kept? cache world.files url ∨
      ∃ body, KeptBetween settings cache client url body world after ∧
        kept? cache after.files url = some body := by
  induction h with
  | refl => exact .inl rfl
  | @tail between after hsteps hstep ih =>
    rcases hstep.kept?_cases hkey with hsame | ⟨other, body, hother, hstored, hnow⟩
    · rw [hsame]
      refine ih.imp_right ?_
      rintro ⟨body, ⟨other, asked, kept, hother, hbefore, hstored, hafter⟩, hnow⟩
      exact ⟨body, ⟨other, asked, kept, hother, hbefore, hstored, hafter.tail hstep⟩, hnow⟩
    · exact .inr ⟨body, ⟨other, between, after, hother, hsteps, hstored, .refl⟩, hnow⟩

end Entries

section Runs

theorem generated_of_mem_resourceDrafts {resource : Resource} {draft : Draft}
    (h : draft ∈ resourceDrafts settings resource) : Generated settings draft := by
  rw [resourceDrafts, List.mem_append, ownDrafts, splitDrafts] at h
  rcases h with hown | hsplit
  · split at hown
    · rw [List.mem_singleton.mp hown]
      exact .ofClass _ resource
    · cases hown
  · split at hsplit
    · rw [interfaceDrafts, List.mem_append, List.mem_map, List.mem_map] at hsplit
      rcases hsplit with ⟨model, -, rfl⟩ | ⟨operation, -, rfl⟩
      · exact .ofModel model
      · exact .ofOptions operation
    · cases hsplit

theorem generated_of_mem_groupDrafts {resources : List Resource} {draft : Draft}
    (h : draft ∈ groupDrafts settings resources) : Generated settings draft := by
  rw [groupDrafts] at h
  split at h
  · cases h
  · rw [Option.mem_toList, Option.map_eq_some_iff] at h
    obtain ⟨merged, -, rfl⟩ := h
    exact .ofClass settings.groupClass merged

theorem writing_of_mem_drafts {resources : List Resource} {draft : Draft}
    (h : draft ∈ drafts settings resources) :
    Writing settings draft.1 (writeText draft.1 draft.2) := by
  rw [drafts, List.mem_cons, List.mem_append] at h
  rcases h with rfl | hresource | hgroup
  · have hbase :
        Writing settings (settings.dest.child baseFile) (writeBase settings.dest) := .base
    rw [writeBase_eq] at hbase
    exact hbase
  · obtain ⟨resource, -, hdraft⟩ := List.mem_flatMap.mp hresource
    exact .text (generated_of_mem_resourceDrafts hdraft)
  · exact .text (generated_of_mem_groupDrafts hgroup)

theorem lasting_steps (settings : Settings) (cache : Path) (client : Web.Client) :
    Lasting (Steps settings cache client) where
  trans := .trans
  printed world stdout stderr := .single (.idle ((lasting_acts ∅).printed world stdout stderr))

/-- A run takes such steps only, however it ends. -/
theorem steps_of_ends_runWith {outcome : Except Failure (List Path)}
    (h : Ends (runWith settings cache client) world outcome after) :
    Steps settings cache client world after := by
  have hR := lasting_steps settings cache client
  refine leaves_runWith hR.reports ?_ ?_ ?_ h
  · exact fun path => (leaves_ensureDirectories path).mono fun hacts => .single (.idle hacts)
  · exact fun url => leaves_json_of hR (fun hacts => .single (.idle hacts))
      fun hstored => .single (.keep hstored)
  · exact fun resources draft hdraft world outcome after hends =>
      .single (.write (writing_of_mem_drafts hdraft) hends)

end Runs

/-- No generated file takes the place of a kept document. Wherever files are generated and
documents kept, and whatever the names in the documents are: a document whose URL has a key is
kept directly in the directory of the cache; the path of a generated file is not that of such a
document and does not lead to its place, and writing the file leaves the document as it is. A run
takes such steps only, so that at its end what stands at the place of a document is what it was or
what the run kept there under the same key. -/
theorem generated_files_spare_entries (settings : Settings) (cache : Path) (client : Web.Client) :
    (∀ url, Cache.key url ≠ "" →
      (Cache.pathFor cache url).parent = cache ∧
      Cache.pathFor cache url = { cache with parts := cache.parts ++ [Cache.key url] } ∧
      ∀ tree : FileTree,
        tree.placeOf (Cache.pathFor cache url) = tree.placeOf cache ++ [Cache.key url]) ∧
    (∀ path action, Writing settings path action → ∀ url, Cache.key url ≠ "" →
      path ≠ Cache.pathFor cache url ∧
      (∀ tree : FileTree, tree.placeOf path ≠ tree.placeOf (Cache.pathFor cache url)) ∧
      ∀ world outcome after, Ends action world outcome after →
        kept? cache after.files url = kept? cache world.files url) ∧
    ∀ world outcome after, Ends (runWith settings cache client) world outcome after →
      Steps settings cache client world after ∧
      ∀ url, Cache.key url ≠ "" →
        kept? cache after.files url = kept? cache world.files url ∨
          ∃ body, KeptBetween settings cache client url body world after ∧
            kept? cache after.files url = some body := by
  refine ⟨fun url hkey => ?_, fun path action hwriting url hkey => ?_, ?_⟩
  · exact ⟨parent_pathFor cache hkey, pathFor_eq cache hkey,
      fun tree => placeOf_pathFor tree cache hkey⟩
  · exact ⟨hwriting.path_ne cache hkey, hwriting.placeOf_ne cache hkey,
      fun world outcome after hends => hwriting.kept?_eq hends cache hkey⟩
  · intro world outcome after hends
    have hsteps := steps_of_ends_runWith hends
    exact ⟨hsteps, fun url hkey => kept?_cases_of_steps hsteps hkey⟩

/-- Documents are kept among the generated files, and the shared class climbs back to them. -/
def sharedDirectory : Settings where
  url := "http://a"
  dest := ⟨.here, ["a"]⟩
  groupClass := "x/../../a/httpa"
  cacheDir := ⟨.here, ["a"]⟩

/-- The shared class lies beside the document of a URL that climbs, whatever the class holds. -/
theorem class_lies_beside_entry :
    Cache.key "http://a/.." ≠ "" ∧
    Cache.pathFor sharedDirectory.cacheDir "http://a/.." = ⟨.here, ["a", "httpa"]⟩ ∧
    ∀ resource, (classDraft sharedDirectory sharedDirectory.groupClass resource).1 =
        ⟨.here, ["a", "x", "..", "..", "a", "httpa.ts"]⟩ ∧
      ∀ tree : FileTree,
        tree.placeOf (classDraft sharedDirectory sharedDirectory.groupClass resource).1 ≠
          tree.placeOf (Cache.pathFor sharedDirectory.cacheDir "http://a/..") := by
  have hkey : Cache.key "http://a/.." ≠ "" := by decide
  obtain ⟨-, hspared, -⟩ :=
    generated_files_spare_entries sharedDirectory sharedDirectory.cacheDir ⟨true⟩
  refine ⟨hkey, by decide, fun resource => ⟨?_, ?_⟩⟩
  · rw [classDraft_fst]
    decide
  · exact (hspared _ _ (.text (.ofClass _ resource)) "http://a/.." hkey).2.1

end ApiClientGen.SparedEntries
