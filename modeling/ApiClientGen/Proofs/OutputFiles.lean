import ApiClientGen.Proofs.KeptDocuments

/-!
What a run writes. The files of a run, in the order in which they are written, are a list of
drafts that depends on the settings and the resources alone; the run lists their paths, and
between the writing of two of them no generated file changes.
-/
namespace ApiClientGen.OutputFiles

open FilePlaces FileTree Generate KeptDocuments Run

variable {world after : World} {cache : Path} {client : Web.Client} {settings : Settings}

def baseDraft (settings : Settings) : Draft :=
  (settings.dest.child baseFile, baseText)

def ownDrafts (settings : Settings) (resource : Resource) : List Draft :=
  if settings.groupClass = "" then [classDraft settings (Naming.className resource) resource]
  else []

def splitDrafts (settings : Settings) (resource : Resource) : List Draft :=
  if settings.splitInterfaces then interfaceDrafts settings resource else []

def resourceDrafts (settings : Settings) (resource : Resource) : List Draft :=
  ownDrafts settings resource ++ splitDrafts settings resource

def groupDrafts (settings : Settings) (resources : List Resource) : List Draft :=
  if settings.groupClass = "" then []
  else ((Resource.merge? resources).map (classDraft settings settings.groupClass)).toList

def drafts (settings : Settings) (resources : List Resource) : List Draft :=
  baseDraft settings ::
    (resources.flatMap (resourceDrafts settings) ++ groupDrafts settings resources)

/-- From one tree to another some drafts are written in order. In between only what is no
generated file changes. -/
inductive Writes : List Draft → FileTree → FileTree → Prop
  | rest {before after : FileTree} :
    Grows {place | ¬ OutputPlace place} before after → Writes [] before after
  | write {draft : Draft} {further : List Draft} {before between after : FileTree} :
    Grows ({place | ¬ OutputPlace place} ∪ {before.placeOf draft.1}) before between →
      between.read draft.1 = .ok draft.2.toUTF8 → Writes further between after →
        Writes (draft :: further) before after

namespace Writes

variable {first second : List Draft} {before between last : FileTree}

theorem of_grows (h : Grows {place | ¬ OutputPlace place} before between)
    (hnext : Writes first between last) : Writes first before last := by
  cases hnext with
  | rest hgrows => exact rest (h.trans hgrows)
  | write hgrows hread hfurther =>
    rw [h.placeOf_eq] at hgrows
    exact write ((h.mono Set.subset_union_left).trans hgrows) hread hfurther

theorem append (h : Writes first before between) (hnext : Writes second between last) :
    Writes (first ++ second) before last := by
  induction h with
  | rest hgrows => exact hnext.of_grows hgrows
  | write hgrows hread _ ih => exact write hgrows hread (ih hnext)

/-- Generated files change only where drafts lead. -/
theorem grows (h : Writes first before last) :
    Grows {place | OutputPlace place → ∃ draft ∈ first, place = before.placeOf draft.1}
      before last := by
  induction h with
  | rest hgrows => exact hgrows.mono fun place hplace houtput => absurd houtput hplace
  | @write draft further before between after hgrows hread _ ih =>
    refine (hgrows.mono ?_).trans (ih.mono ?_)
    · rintro place (hplace | hplace) houtput
      · exact absurd houtput hplace
      · exact ⟨draft, List.mem_cons_self .., hplace⟩
    · intro place hplace houtput
      obtain ⟨other, hother, hwhere⟩ := hplace houtput
      rw [hgrows.placeOf_eq] at hwhere
      exact ⟨other, List.mem_cons_of_mem draft hother, hwhere⟩

/-- A draft is read back as soon as it is written; the later ones follow. -/
theorem split {front back : List Draft} {draft : Draft}
    (h : Writes (front ++ draft :: back) before last) : ∃ between,
      between.here = before.here ∧ between.read draft.1 = .ok draft.2.toUTF8 ∧
        Writes back between last := by
  induction front generalizing before with
  | nil =>
    cases h with
    | write hgrows hread hfurther => exact ⟨_, hgrows.here_eq, hread, hfurther⟩
  | cons earlier front ih =>
    cases h with
    | write hgrows _ hfurther =>
      obtain ⟨between, hhere, hread, hback⟩ := ih hfurther
      exact ⟨between, hhere.trans hgrows.here_eq, hread, hback⟩

/-- The path of a draft leads to its place at the end. -/
theorem resolve {front back : List Draft} {draft : Draft}
    (h : Writes (front ++ draft :: back) before last) :
    last.resolve draft.1 = .ok (before.placeOf draft.1) := by
  obtain ⟨between, hhere, hread, hback⟩ := h.split
  rw [← placeOf_eq_of_here_eq hhere]
  exact hback.grows.resolve (read_eq_ok_iff.mp hread).1

/-- A draft that no later draft replaces reads back. -/
theorem read_eq {front back : List Draft} {draft : Draft}
    (h : Writes (front ++ draft :: back) before last) (hpath : IsOutput draft.1)
    (hlast : ∀ other ∈ back, before.placeOf other.1 ≠ before.placeOf draft.1) :
    last.read draft.1 = .ok draft.2.toUTF8 := by
  obtain ⟨between, hhere, hread, hback⟩ := h.split
  have hplaces := placeOf_eq_of_here_eq hhere
  obtain ⟨hresolve, hnode⟩ := read_eq_ok_iff.mp hread
  rw [read_eq_ok_iff, hback.grows.placeOf_eq]
  refine ⟨hback.grows.resolve hresolve, hback.grows.keeps_file ?_ hnode⟩
  intro hplace
  obtain ⟨other, hother, hwhere⟩ := hplace (outputPlace_placeOf _ hpath)
  rw [hplaces, hplaces] at hwhere
  exact hlast other hother hwhere.symm

end Writes

/-- Where nothing is to be written nothing happens. -/
theorem ends_nothing_ok {paths : List Path} (h : Ends (pure []) world (.ok paths) after) :
    paths = ([] : List Draft).map Prod.fst ∧ Writes [] world.files after.files := by
  obtain ⟨heq, rfl⟩ := ends_pure_iff.mp h
  cases heq
  exact ⟨rfl, .rest (Grows.refl _ _)⟩

theorem ends_writeDrafts_ok {list : List Draft} {paths : List Path}
    (h : Ends (writeDrafts list) world (.ok paths) after) :
    paths = list.map Prod.fst ∧ Writes list world.files after.files := by
  induction list generalizing world paths with
  | nil => exact ends_nothing_ok h
  | cons draft further ih =>
    rw [writeDrafts, ends_bind_ok_iff] at h
    obtain ⟨first, between, hfirst, hrest⟩ := h
    simp only [ends_bind_ok_iff, ends_pure_iff] at hrest
    obtain ⟨others, last, hothers, heq, rfl⟩ := hrest
    cases heq
    obtain ⟨rfl, hgrows, -, hread⟩ := ends_writeText_ok hfirst
    obtain ⟨rfl, hwrites⟩ := ih hothers
    exact ⟨rfl, .write (hgrows.mono Set.subset_union_right) hread hwrites⟩

/-- Fetching a document changes no generated file. -/
theorem grows_of_ends_json {url : String} {value : Json}
    (h : Ends (Fetch.json cache client url) world (.ok value) after) :
    Grows {place | ¬ OutputPlace place} world.files after.files := by
  obtain ⟨-, rfl | ⟨hkey, -, hgrows⟩⟩ := ends_json_ok h
  · exact Grows.refl _ after.files
  · apply hgrows.mono
    intro place hplace
    rw [Set.mem_singleton_iff.mp hplace]
    exact not_outputPlace_pathFor world.files cache hkey

theorem grows_of_ends_resource {root : String} {listing : Listing} {entry : ListingEntry}
    {found : Resource}
    (h : Ends (Fetch.resource cache client root listing entry) world (.ok found) after) :
    Grows {place | ¬ OutputPlace place} world.files after.files := by
  obtain ⟨said, value, read, hjson, -⟩ := ends_resource_ok h
  have hgrows := grows_of_ends_json hjson
  exact hgrows

theorem files_of_checkReferences {name : String} {resource : Resource} {strict : Bool}
    {missing : List String}
    (h : Ends (checkReferences name resource strict) world (.ok missing) after) :
    after.files = world.files := by
  unfold checkReferences at h
  dsimp only at h
  split at h
  · rw [(ends_pure_iff.mp h).2]
  · split at h
    · cases (ends_throw_iff.mp h).1
    · rw [ends_bind_ok_iff] at h
      obtain ⟨_, warned, hwarn, hrest⟩ := h
      rw [(ends_pure_iff.mp hrest).2, (ends_warn_iff.mp hwarn).2]

theorem ends_writeClass_ok {name : String} {resource : Resource} {paths : List Path}
    (h : Ends (writeClass settings name resource) world (.ok paths) after) :
    paths = [(classDraft settings name resource).1] ∧
      Writes [classDraft settings name resource] world.files after.files := by
  rw [writeClass, ends_bind_ok_iff] at h
  obtain ⟨missing, checked, hcheck, hdrafts⟩ := h
  rw [← files_of_checkReferences hcheck]
  exact ends_writeDrafts_ok hdrafts

theorem ends_writeOwnClass_ok {resource : Resource} {paths : List Path}
    (h : Ends (writeOwnClass settings resource) world (.ok paths) after) :
    paths = (ownDrafts settings resource).map Prod.fst ∧
      Writes (ownDrafts settings resource) world.files after.files := by
  rw [writeOwnClass] at h
  rw [ownDrafts]
  by_cases hgroup : settings.groupClass = ""
  · rw [if_pos hgroup] at h ⊢
    exact ends_writeClass_ok h
  · rw [if_neg hgroup] at h ⊢
    exact ends_nothing_ok h

theorem ends_writeInterfaces_ok {resource : Resource} {paths : List Path}
    (h : Ends (writeInterfaces settings resource) world (.ok paths) after) :
    paths = (splitDrafts settings resource).map Prod.fst ∧
      Writes (splitDrafts settings resource) world.files after.files := by
  rw [writeInterfaces] at h
  rw [splitDrafts]
  by_cases hsplit : settings.splitInterfaces = true
  · rw [if_pos hsplit] at h ⊢
    exact ends_writeDrafts_ok h
  · rw [if_neg hsplit] at h ⊢
    exact ends_nothing_ok h

theorem ends_writeResource_ok {resource : Resource} {paths : List Path}
    (h : Ends (writeResource settings resource) world (.ok paths) after) :
    paths = (resourceDrafts settings resource).map Prod.fst ∧
      Writes (resourceDrafts settings resource) world.files after.files := by
  rw [writeResource, ends_bind_ok_iff] at h
  obtain ⟨ofClass, between, hclass, hrest⟩ := h
  simp only [ends_bind_ok_iff, ends_pure_iff] at hrest
  obtain ⟨ofInterfaces, last, hinterfaces, heq, rfl⟩ := hrest
  cases heq
  obtain ⟨rfl, hfirst⟩ := ends_writeOwnClass_ok hclass
  obtain ⟨rfl, hsecond⟩ := ends_writeInterfaces_ok hinterfaces
  refine ⟨?_, hfirst.append hsecond⟩
  rw [resourceDrafts, List.map_append]

/-- Where the entries of a listing are handled well, the first one is, and then the others. -/
theorem ends_writeResources_cons_iff {listing : Listing} {entry : ListingEntry}
    {entries : List ListingEntry} {found : List Path × List Resource} :
    Ends (writeResources settings cache client listing (entry :: entries)) world (.ok found)
      after ↔ ∃ resource fetched written wrote others,
        Ends (Fetch.resource cache client settings.url listing entry) world
          (.ok resource) fetched ∧
        Ends (writeResource settings resource) fetched (.ok written) wrote ∧
        Ends (writeResources settings cache client listing entries) wrote (.ok others) after ∧
        found = (written ++ others.1, resource :: others.2) := by
  constructor
  · intro h
    obtain ⟨resource, fetched, hfetch, h⟩ := ends_bind_ok_iff.mp h
    obtain ⟨written, wrote, hwrite, h⟩ := ends_bind_ok_iff.mp h
    obtain ⟨others, last, hothers, h⟩ := ends_bind_ok_iff.mp h
    obtain ⟨heq, rfl⟩ := ends_pure_iff.mp h
    exact ⟨resource, fetched, written, wrote, others, hfetch, hwrite, hothers, Except.ok.inj heq⟩
  · rintro ⟨resource, fetched, written, wrote, others, hfetch, hwrite, hothers, rfl⟩
    exact hfetch.bind (hwrite.bind (hothers.bind (ends_pure_iff.mpr ⟨rfl, rfl⟩)))

theorem ends_writeResources_ok {listing : Listing} {entries : List ListingEntry}
    {paths : List Path} {resources : List Resource}
    (h : Ends (writeResources settings cache client listing entries) world
      (.ok (paths, resources)) after) :
    paths = (resources.flatMap (resourceDrafts settings)).map Prod.fst ∧
      Writes (resources.flatMap (resourceDrafts settings)) world.files after.files := by
  induction entries generalizing world paths resources with
  | nil =>
    obtain ⟨heq, rfl⟩ := ends_pure_iff.mp h
    cases heq
    exact ⟨rfl, .rest (Grows.refl _ _)⟩
  | cons entry further ih =>
    obtain ⟨resource, fetched, written, wrote, ⟨others, found⟩, hfetch, hwritten, hothers, heq⟩ :=
      ends_writeResources_cons_iff.mp h
    cases heq
    obtain ⟨rfl, hfirst⟩ := ends_writeResource_ok hwritten
    obtain ⟨rfl, hfurther⟩ := ih hothers
    refine ⟨?_, ?_⟩
    · rw [List.flatMap_cons, List.map_append]
    · rw [List.flatMap_cons]
      exact (hfirst.of_grows (grows_of_ends_resource hfetch)).append hfurther

theorem ends_writeGroup_ok {resources : List Resource} {paths : List Path}
    (h : Ends (writeGroup settings resources) world (.ok paths) after) :
    paths = (groupDrafts settings resources).map Prod.fst ∧
      Writes (groupDrafts settings resources) world.files after.files := by
  rw [writeGroup] at h
  split at h
  · rename_i hnone
    rw [groupDrafts, if_pos hnone]
    exact ends_nothing_ok h
  · rename_i hsome
    cases hmerge : Resource.merge? resources with
    | none =>
      rw [hmerge] at h
      cases (ends_throw_iff.mp h).1
    | some merged =>
      rw [hmerge] at h
      rw [groupDrafts, if_neg hsome, hmerge]
      exact ends_writeClass_ok h

/-- A class of all resources is written only when there are resources to merge. -/
theorem exists_merge_of_writeGroup {resources : List Resource} {paths : List Path}
    (hgroup : settings.groupClass ≠ "")
    (h : Ends (writeGroup settings resources) world (.ok paths) after) :
    ∃ merged, Resource.merge? resources = some merged := by
  cases hmerge : Resource.merge? resources with
  | some merged => exact ⟨merged, rfl⟩
  | none =>
    rw [writeGroup, if_neg hgroup, hmerge] at h
    cases (ends_throw_iff.mp h).1

theorem grows_of_ends_ensureDirectories {path : Path} {value : Unit}
    (h : Ends (ensureDirectories path) world (.ok value) after) :
    Grows {place | ¬ OutputPlace place} world.files after.files := by
  obtain ⟨changed, hchanged, rfl⟩ := ends_ensureDirectories_ok_iff.mp h
  exact (grows_of_ensureDirectories hchanged).1.mono (Set.empty_subset _)

theorem ends_prepare_ok {path : Path} (h : Ends (prepare settings) world (.ok path) after) :
    path = (baseDraft settings).1 ∧ Writes [baseDraft settings] world.files after.files := by
  have hbase {before : World} (hwrite : Ends (writeBase settings.dest) before (.ok path) after) :
      path = (baseDraft settings).1 ∧ Writes [baseDraft settings] before.files after.files := by
    rw [writeBase_eq] at hwrite
    obtain ⟨rfl, hgrows, -, hread⟩ := ends_writeText_ok hwrite
    exact ⟨rfl, .write (hgrows.mono Set.subset_union_right) hread (.rest (Grows.refl _ _))⟩
  rw [prepare, ends_bind_ok_iff] at h
  obtain ⟨_, made, hmake, hrest⟩ := h
  have hmade := grows_of_ends_ensureDirectories hmake
  dsimp only at hrest
  split at hrest
  · rw [ends_bind_ok_iff] at hrest
    obtain ⟨_, split, hsplit, hwrite⟩ := hrest
    obtain ⟨hpath, hwrites⟩ := hbase hwrite
    exact ⟨hpath, hwrites.of_grows (hmade.trans (grows_of_ends_ensureDirectories hsplit))⟩
  · obtain ⟨hpath, hwrites⟩ := hbase hrest
    exact ⟨hpath, hwrites.of_grows hmade⟩

theorem grows_of_ends_listing {url : String} {listing : Listing}
    (h : Ends (Fetch.listing cache client url) world (.ok listing) after) :
    Grows {place | ¬ OutputPlace place} world.files after.files := by
  obtain ⟨value, hjson, -⟩ := ends_listing_ok h
  exact grows_of_ends_json hjson

/-- The resources that a run reads, in the order of the listing. -/
def Reads (settings : Settings) (cache : Path) (client : Web.Client) (world : World)
    (resources : List Resource) : Prop :=
  ∃ base prepared listing listed written wrote,
    Ends (prepare settings) world (.ok base) prepared ∧
      Ends (Fetch.listing cache client settings.url) prepared (.ok listing) listed ∧
        Ends (writeResources settings cache client listing listing.apis) listed
          (.ok (written, resources)) wrote

def closingLine (settings : Settings) (paths : List Path) : String :=
  s!"Generated {paths.length} files in {settings.dest}"

/-- The steps of a run that ends well. -/
theorem ends_runWith_iff {paths : List Path} :
    Ends (runWith settings cache client) world (.ok paths) after ↔
      ∃ base prepared listing listed written found wrote grouped last,
        Ends (prepare settings) world (.ok base) prepared ∧
        Ends (Fetch.listing cache client settings.url) prepared (.ok listing) listed ∧
        Ends (writeResources settings cache client listing listing.apis) listed
          (.ok (written, found)) wrote ∧
        Ends (writeGroup settings found) wrote (.ok grouped) last ∧
        paths = base :: (written ++ grouped) ∧
        after = { last with stdout := last.stdout ++ closingLine settings paths ++ "\n" } := by
  constructor
  · intro h
    obtain ⟨base, prepared, hprepare, h⟩ := ends_bind_ok_iff.mp h
    obtain ⟨listing, listed, hlisting, h⟩ := ends_bind_ok_iff.mp h
    obtain ⟨⟨written, found⟩, wrote, hresources, h⟩ := ends_bind_ok_iff.mp h
    obtain ⟨grouped, last, hgrouped, h⟩ := ends_bind_ok_iff.mp h
    obtain ⟨_, said, hsaid, h⟩ := ends_bind_ok_iff.mp h
    obtain ⟨heq, rfl⟩ := ends_pure_iff.mp h
    cases heq
    exact ⟨base, prepared, listing, listed, written, found, wrote, grouped, last, hprepare,
      hlisting, hresources, hgrouped, rfl, (ends_printLine_iff.mp hsaid).2⟩
  · rintro ⟨base, prepared, listing, listed, written, found, wrote, grouped, last, hprepare,
      hlisting, hresources, hgrouped, rfl, rfl⟩
    have hsaid : Ends (printLine (closingLine settings (base :: (written ++ grouped)))) last
        (.ok ()) _ := ends_printLine_iff.mpr ⟨rfl, rfl⟩
    exact hprepare.bind (hlisting.bind (hresources.bind (hgrouped.bind
      (hsaid.bind (ends_pure_iff.mpr ⟨rfl, rfl⟩)))))

/-- A run that succeeds writes the drafts of the resources that it read, lists their paths and
tells how many they are. -/
theorem ends_runWith_ok {paths : List Path}
    (h : Ends (runWith settings cache client) world (.ok paths) after) :
    ∃ resources, Reads settings cache client world resources ∧
      paths = (drafts settings resources).map Prod.fst ∧
        Writes (drafts settings resources) world.files after.files ∧
          ∃ said, after.stdout =
            said ++ s!"Generated {paths.length} files in {settings.dest}" ++ "\n" := by
  obtain ⟨base, prepared, listing, listed, written, resources, wrote, grouped, last, hprepare,
    hlisting, hresources, hgroup, rfl, rfl⟩ := ends_runWith_iff.mp h
  have hreads : Reads settings cache client world resources :=
    ⟨base, prepared, listing, listed, written, wrote, hprepare, hlisting, hresources⟩
  obtain ⟨rfl, hfirst⟩ := ends_prepare_ok hprepare
  obtain ⟨rfl, hsecond⟩ := ends_writeResources_ok hresources
  obtain ⟨rfl, hthird⟩ := ends_writeGroup_ok hgroup
  refine ⟨resources, hreads, ?_, ?_, last.stdout, rfl⟩
  · rw [drafts, List.map_cons, List.map_append]
  · exact hfirst.append ((hsecond.append hthird).of_grows (grows_of_ends_listing hlisting))

end ApiClientGen.OutputFiles
