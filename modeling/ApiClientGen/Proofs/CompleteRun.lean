import ApiClientGen.Proofs.FailingRuns
import ApiClientGen.Proofs.FetchedDocuments
import ApiClientGen.Proofs.SplitFiles

/-!
All that a run does to the files when it ends well. It writes the files that it lists, in this
order, and each of them holds the text of the last one that leads to its place. Besides, it stores
the documents that it requested. No other file changes, comes or goes.
-/
namespace ApiClientGen.CompleteRun

open FailingRuns FetchedDocuments FileContents FilePlaces FileTree Generate KeptDocuments
  OutputFiles OutputNames Run RunEffect RunSteps SplitFiles

variable {settings : Settings} {cache : Path} {client : Web.Client} {listing : Listing}
  {entries : List ListingEntry} {resources : List Resource} {paths : List Path}
  {world after : World}

/-- From one world to another the documents at some URLs are requested, and nothing is written but
where these are kept and where generated files lie. -/
def Does (cache : Path) (client : Web.Client) (asked : List String) (before after : World) :
    Prop :=
  Gets cache client {place | OutputPlace place} asked before after

section Steps

theorem lasting_does_nil (cache : Path) (client : Web.Client) : Lasting (Does cache client []) :=
  lasting_gets_nil cache client _

theorem leaves_make (path : Path) : Leaves (Does cache client []) (ensureDirectories path) := by
  intro world outcome after hends
  have hacts := leaves_ensureDirectories path hends
  obtain ⟨files, rfl⟩ := RequestTrail.leaves_make path hends
  exact gets_nil (hacts.mono (Set.empty_subset _)) rfl

theorem leaves_text {path : Path} (text : String) (h : IsOutput path) :
    Leaves (Does cache client []) (writeText path text) := by
  intro world outcome after hends
  have hacts := acts_of_writeText hends
  have hplace := outputPlace_placeOf world.files h
  obtain ⟨files, rfl⟩ := RequestTrail.leaves_text path text hends
  exact gets_nil (hacts.mono (Set.singleton_subset_iff.mpr hplace)) rfl

theorem does_of_prepare {base : Path} (h : Ends (prepare settings) world (.ok base) after) :
    Does cache client [] world after :=
  leaves_prepare (lasting_does_nil cache client).carried leaves_make
    (leaves_text _ (isOutput_base settings.dest)) h

theorem does_of_writeResource {resource : Resource} {written : List Path}
    (h : Ends (writeResource settings resource) world (.ok written) after) :
    Does cache client [] world after :=
  leaves_writeResource (lasting_does_nil cache client).reports
    (fun draft hmem => leaves_text draft.2 (isOutput_of_mem_resourceDrafts hmem)) h

theorem does_of_writeGroup (h : Ends (writeGroup settings resources) world (.ok paths) after) :
    Does cache client [] world after := by
  refine leaves_writeGroup (lasting_does_nil cache client).reports (fun draft hmem => ?_) h
  apply leaves_text draft.2
  apply isOutput_of_mem_drafts
  rw [drafts]
  exact List.mem_cons_of_mem _ (List.mem_append_right _ hmem)

theorem does_of_listing {root : String}
    (h : Ends (Fetch.listing cache client root) world (.ok listing) after) :
    ∃ asked, asked.Sublist [root] ∧ Does cache client asked world after := by
  obtain ⟨value, hjson, -⟩ := ends_listing_ok h
  obtain ⟨asked, hasked, hgets⟩ := exists_gets_of_json hjson
  exact ⟨asked, hasked, hgets.mono (Set.empty_subset _)⟩

theorem does_of_resource {root : String} {entry : ListingEntry} {resource : Resource}
    (h : Ends (Fetch.resource cache client root listing entry) world (.ok resource) after) :
    ∃ asked, asked.Sublist [Fetch.entryUrl root listing entry] ∧
      Does cache client asked world after := by
  obtain ⟨said, value, read, hjson, -⟩ := ends_resource_ok h
  obtain ⟨asked, hasked, hgets⟩ := exists_gets_of_json hjson
  have hsaid : Does cache client [] world { world with stdout := said } :=
    (lasting_does_nil cache client).printed world said world.stderr
  exact ⟨asked, hasked, hsaid.append (hgets.mono (Set.empty_subset _))⟩

/-- Of the entries of a listing those are requested that are not kept, in their order. -/
theorem does_of_writeResources {found : List Path × List Resource}
    (h : Ends (writeResources settings cache client listing entries) world (.ok found) after) :
    ∃ asked, asked.Sublist (entries.map (Fetch.entryUrl settings.url listing)) ∧
      Does cache client asked world after := by
  induction entries generalizing world found with
  | nil =>
    obtain ⟨-, rfl⟩ := ends_pure_iff.mp h
    exact ⟨[], List.nil_sublist _, (lasting_does_nil cache client).refl after⟩
  | cons entry rest ih =>
    obtain ⟨resource, fetched, written, wrote, others, hfetch, hwrite, hothers, -⟩ :=
      ends_writeResources_cons_iff.mp h
    obtain ⟨first, hfirst, hfetched⟩ := does_of_resource hfetch
    obtain ⟨further, hfurther, hrest⟩ := ih hothers
    have hwrote : Does cache client [] fetched wrote := does_of_writeResource hwrite
    exact ⟨first ++ further, hfirst.append hfurther, hfetched.append (hwrote.append hrest)⟩

end Steps

/-- A resource is what fetching it for an entry gave at some point. -/
def FetchedFor (settings : Settings) (cache : Path) (client : Web.Client) (listing : Listing)
    (entry : ListingEntry) (resource : Resource) : Prop :=
  ∃ before fetched,
    Ends (Fetch.resource cache client settings.url listing entry) before (.ok resource) fetched

theorem fetchedFor_of_writeResources {found : List Path × List Resource}
    (h : Ends (writeResources settings cache client listing entries) world (.ok found) after) :
    List.Forall₂ (FetchedFor settings cache client listing) entries found.2 := by
  induction entries generalizing world found with
  | nil =>
    obtain ⟨heq, -⟩ := ends_pure_iff.mp h
    cases heq
    exact .nil
  | cons entry rest ih =>
    obtain ⟨resource, fetched, written, wrote, others, hfetch, hwrite, hothers, rfl⟩ :=
      ends_writeResources_cons_iff.mp h
    exact .cons ⟨world, fetched, hfetch⟩ (ih hothers)

/-- What a run has done that ended well: it has read a resource for each entry of the listing, and
the documents at some URLs were requested for that. -/
structure Completed (settings : Settings) (cache : Path) (client : Web.Client) (world : World)
    (listing : Listing) (resources : List Resource) (asked : List String) (paths : List Path)
    (after : World) : Prop where
  reached : ∃ reached,
    Reached settings cache client world listing listing.apis [] resources reached
  fetched : List.Forall₂ (FetchedFor settings cache client listing) listing.apis resources
  paths_eq : paths = (drafts settings resources).map Prod.fst
  grouped : settings.groupClass ≠ "" → ∃ merged, Resource.merge? resources = some merged ∧
    groupDrafts settings resources = [classDraft settings settings.groupClass merged]
  asked_sublist :
    asked.Sublist (settings.url :: listing.apis.map (Fetch.entryUrl settings.url listing))
  got : GotInTurn client world.server asked world.requests after.requests
  read_last : ∀ path ∈ paths, ∃ final,
    lastAt world.files path (drafts settings resources) = some final ∧
      after.files.read path = .ok final.2.toUTF8
  untouched : ∀ place, (∀ path ∈ paths, world.files.placeOf path ≠ place) →
    place ∉ placesFor cache world.files asked →
      content? after.files place = content? world.files place

/-- A run that ends well lists the base class, then entry by entry what the resource gives, and at
last the class of all of them if one is asked for. It leaves in each of these files the text of
the last one that leads there, stores the documents that it requested, and changes no other
file. -/
theorem run_writes_listed_files
    (h : Ends (runWith settings cache client) world (.ok paths) after) :
    ∃ listing resources asked,
      Completed settings cache client world listing resources asked paths after := by
  obtain ⟨base, prepared, listing, listed, written, resources, wrote, grouped, last, hprepare,
    hlisting, hresources, hgroup, rfl, rfl⟩ := ends_runWith_iff.mp h
  have hreached : Reached settings cache client world listing listing.apis [] resources wrote :=
    ⟨(List.append_nil _).symm, listed, written, ⟨base, prepared, hprepare, hlisting⟩, hresources⟩
  have hwrites : Writes (drafts settings resources) world.files last.files :=
    hreached.writes.append (ends_writeGroup_ok hgroup).2
  have hpaths : base :: (written ++ grouped) = (drafts settings resources).map Prod.fst := by
    rw [(ends_prepare_ok hprepare).1, (ends_writeResources_ok hresources).1,
      (ends_writeGroup_ok hgroup).1, drafts, List.map_cons, List.map_append]
  obtain ⟨first, hfirst, hlisted⟩ := does_of_listing hlisting
  obtain ⟨further, hfurther, hrest⟩ := does_of_writeResources hresources
  have hdone : Does cache client (first ++ further) world last := by
    have hbefore : Does cache client [] world prepared := does_of_prepare hprepare
    have hbehind : Does cache client [] wrote last := does_of_writeGroup hgroup
    have hall := hbefore.append (hlisted.append (hrest.append hbehind))
    rwa [List.nil_append, List.append_nil] at hall
  refine ⟨listing, resources, first ++ further, ⟨wrote, hreached⟩,
    fetchedFor_of_writeResources hresources, hpaths, ?_, hfirst.append hfurther, hdone.got,
    ?_, ?_⟩
  · intro hclass
    obtain ⟨merged, hmerge⟩ := exists_merge_of_writeGroup hclass hgroup
    refine ⟨merged, hmerge, ?_⟩
    rw [groupDrafts, if_neg hclass, hmerge]
    rfl
  · intro path hpath
    rw [hpaths] at hpath
    obtain ⟨draft, hdraft, rfl⟩ := List.mem_map.mp hpath
    obtain ⟨final, hfinal⟩ := exists_lastAt world.files hdraft
    exact ⟨final, hfinal, read_lastAt hwrites (fun _ => isOutput_of_mem_drafts) hdraft hfinal⟩
  · intro place hlisted hplace
    by_cases houtput : OutputPlace place
    · refine (content?_of_writes hwrites houtput).trans (contentAfter_eq_content? ?_)
      intro draft hdraft
      apply hlisted
      rw [hpaths]
      exact List.mem_map_of_mem hdraft
    · apply content?_eq_of_grows hdone.acts.grows
      rintro (hmem | hmem)
      · exact hplace hmem
      · exact houtput hmem

/-- A run that writes one of its files twice. -/
theorem repeating_run_writes_listed_files : ∃ after listing resources asked,
    Ends (run repeatingSettings ⟨false⟩) repeatingWorld (.ok repeatedPaths) after ∧
    Completed repeatingSettings repeatingSettings.cacheDir ⟨false⟩ repeatingWorld listing
      resources asked repeatedPaths after := by
  obtain ⟨after, hends⟩ := ends_run_repeating
  obtain ⟨listing, resources, asked, hcompleted⟩ := run_writes_listed_files hends
  exact ⟨after, listing, resources, asked, hends, hcompleted⟩

end ApiClientGen.CompleteRun
