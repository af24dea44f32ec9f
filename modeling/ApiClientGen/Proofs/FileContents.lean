import ApiClientGen.Proofs.OutputNames
import ApiClientGen.Proofs.RunSteps

/-!
What files hold after some drafts were written. A draft decides what stands at the place to which
it leads, and the last one of them counts; every other file is as it was, but for the documents
that the cache gained on the way.
-/
namespace ApiClientGen.FileContents

open FilePlaces FileTree Generate KeptDocuments OutputFiles OutputNames Run RunEffect RunSteps

variable {tree before between after : FileTree} {place : FilePlace} {cache path : Path}
  {client : Web.Client} {list : List Draft} {settings : Settings}

def content? (tree : FileTree) (place : FilePlace) : Option ByteArray :=
  match tree.node? place with
  | some (.file content) => some content
  | _ => none

/-- What stands at a place of which the content is given once some drafts are written in order. -/
def overwritten (tree : FileTree) (place : FilePlace) :
    List Draft → Option ByteArray → Option ByteArray
  | [], content => content
  | draft :: rest, content =>
    overwritten tree place rest
      (if tree.placeOf draft.1 = place then some draft.2.toUTF8 else content)

/-- The content of a file once some drafts are written over a tree. -/
def contentAfter (tree : FileTree) (list : List Draft) (place : FilePlace) : Option ByteArray :=
  overwritten tree place list (content? tree place)

/-- Where drafts lead depends on the working directory alone. -/
theorem overwritten_eq_of_here_eq (h : after.here = before.here) (list : List Draft)
    (content : Option ByteArray) :
    overwritten after place list content = overwritten before place list content := by
  induction list generalizing content with
  | nil => rfl
  | cons draft rest ih => rw [overwritten, overwritten, ih, placeOf_eq_of_here_eq h]

/-- A file to which no draft leads is as it was. -/
theorem contentAfter_eq_content? (h : ∀ draft ∈ list, tree.placeOf draft.1 ≠ place) :
    contentAfter tree list place = content? tree place := by
  rw [contentAfter]
  induction list with
  | nil => rfl
  | cons draft rest ih =>
    obtain ⟨hdraft, hrest⟩ := List.forall_mem_cons.mp h
    rw [overwritten, if_neg hdraft, ih hrest]

theorem content?_of_read {content : ByteArray} (h : tree.read path = .ok content) :
    content? tree (tree.placeOf path) = some content := by
  rw [content?, (read_eq_ok_iff.mp h).2]

/-- As a tree grows, files change only where something is written. -/
theorem content?_eq_of_grows {written : Set FilePlace} (h : Grows written before after)
    (hplace : place ∉ written) : content? after place = content? before place := by
  rcases h.cases_node place with hsame | ⟨hnone, hdir⟩ | ⟨hmem, -⟩
  · rw [content?, content?, hsame]
  · rw [content?, content?, hnone, hdir]
  · exact absurd hmem hplace

/-- Each generated file holds what the drafts leave there. -/
theorem content?_of_writes (h : Writes list before after) (hplace : OutputPlace place) :
    content? after place = contentAfter before list place := by
  induction h with
  | rest hgrows => exact content?_eq_of_grows hgrows fun hmem => hmem hplace
  | @write draft further before between after hgrows hread _ ih =>
    have hdraft : content? between place =
        if before.placeOf draft.1 = place then some draft.2.toUTF8
        else content? before place := by
      split
      · rename_i hwhere
        rw [← hwhere, ← hgrows.placeOf_eq]
        exact content?_of_read hread
      · rename_i hwhere
        apply content?_eq_of_grows hgrows
        rintro (hmem | hmem)
        · exact hmem hplace
        · exact hwhere hmem.symm
    rw [ih, contentAfter, hdraft, overwritten_eq_of_here_eq hgrows.here_eq]
    rfl

def keptPlaces (cache : Path) (tree : FileTree) : Set FilePlace :=
  {place | ∃ url, Cache.key url ≠ "" ∧ place = tree.placeOf (Cache.pathFor cache url)}

theorem keptPlaces_eq (h : after.here = before.here) :
    keptPlaces cache after = keptPlaces cache before := by
  simp only [keptPlaces, placeOf_eq_of_here_eq h]

theorem not_outputPlace_of_mem_keptPlaces (h : place ∈ keptPlaces cache tree) :
    ¬ OutputPlace place := by
  obtain ⟨url, hkey, hplace⟩ := h
  rw [hplace]
  exact not_outputPlace_pathFor tree cache hkey

/-- No generated file lies where a document is kept. -/
theorem not_mem_keptPlaces_of_isOutput (tree : FileTree) (cache : Path) (h : IsOutput path) :
    tree.placeOf path ∉ keptPlaces cache tree :=
  fun hmem => not_outputPlace_of_mem_keptPlaces hmem (outputPlace_placeOf tree h)

def writtenPlaces (cache : Path) (tree : FileTree) : Set FilePlace :=
  keptPlaces cache tree ∪ {place | OutputPlace place}

theorem writtenPlaces_eq (h : after.here = before.here) :
    writtenPlaces cache after = writtenPlaces cache before := by
  rw [writtenPlaces, writtenPlaces, keptPlaces_eq h]

/-- From one world to another no file is written but kept documents. -/
def KeepsOnly (cache : Path) (before after : World) : Prop :=
  Acts (keptPlaces cache before.files) before after

/-- From one world to another no file is written but kept documents and generated files. -/
def WritesOnly (cache : Path) (before after : World) : Prop :=
  Acts (writtenPlaces cache before.files) before after

section Kinds

variable {world last : World}

theorem lasting_keepsOnly (cache : Path) : Lasting (KeepsOnly cache) :=
  lasting_acts_in keptPlaces_eq

theorem lasting_writesOnly (cache : Path) : Lasting (WritesOnly cache) :=
  lasting_acts_in writtenPlaces_eq

theorem KeepsOnly.writesOnly (h : KeepsOnly cache world last) : WritesOnly cache world last :=
  h.mono Set.subset_union_left

/-- Where only documents are kept no draft is written. -/
theorem KeepsOnly.writes (h : KeepsOnly cache world last) : Writes [] world.files last.files :=
  .rest (h.grows.mono fun _ => not_outputPlace_of_mem_keptPlaces)

theorem leaves_fetch (url : String) : Leaves (KeepsOnly cache) (Fetch.json cache client url) := by
  refine leaves_json_of (lasting_keepsOnly cache) (fun hacts =>
    hacts.mono (Set.empty_subset _)) ?_
  intro body before last hstored
  exact hstored.acts.mono (Set.singleton_subset_iff.mpr ⟨url, hstored.key_ne, rfl⟩)

theorem leaves_make (path : Path) : Leaves (WritesOnly cache) (ensureDirectories path) :=
  (leaves_ensureDirectories path).mono fun hacts => hacts.mono (Set.empty_subset _)

theorem leaves_text {path : Path} (text : String) (h : IsOutput path) :
    Leaves (WritesOnly cache) (writeText path text) := by
  intro world outcome after hends
  exact (acts_of_writeText hends).mono
    (Set.singleton_subset_iff.mpr (Or.inr (outputPlace_placeOf world.files h)))

theorem leaves_start (settings : Settings) : Leaves (WritesOnly cache) (prepare settings) :=
  leaves_prepare (lasting_writesOnly cache).carried leaves_make
    (leaves_text _ (isOutput_base settings.dest))

theorem isOutput_of_mem_resourceDrafts {resource : Resource} {draft : Draft}
    (h : draft ∈ resourceDrafts settings resource) : IsOutput draft.1 := by
  apply isOutput_of_mem_drafts
  rw [drafts, List.flatMap_singleton]
  exact List.mem_cons_of_mem _ (List.mem_append_left _ h)

theorem leaves_entries (settings : Settings) (listing : Listing) (entries : List ListingEntry) :
    Leaves (WritesOnly cache) (writeResources settings cache client listing entries) :=
  leaves_writeResources (lasting_writesOnly cache).reports
    (fun url => (leaves_fetch url).mono KeepsOnly.writesOnly)
    (fun _ draft hmem => leaves_text draft.2 (isOutput_of_mem_resourceDrafts hmem)) listing
    entries

/-- Where no document is kept, each file holds what the drafts leave there. -/
theorem content?_eq_contentAfter (honly : WritesOnly cache world last)
    (hwrites : Writes list world.files last.files) (hlist : ∀ draft ∈ list, IsOutput draft.1)
    (hplace : place ∉ keptPlaces cache world.files) :
    content? last.files place = contentAfter world.files list place := by
  by_cases houtput : OutputPlace place
  · exact content?_of_writes hwrites houtput
  · rw [contentAfter_eq_content?]
    · apply content?_eq_of_grows honly.grows
      rintro (hmem | hmem)
      · exact hplace hmem
      · exact houtput hmem
    · rintro draft hmem rfl
      exact houtput (outputPlace_placeOf _ (hlist draft hmem))

end Kinds

end ApiClientGen.FileContents
