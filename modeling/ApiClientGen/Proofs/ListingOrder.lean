import ApiClientGen.Proofs.FinalCache
import ApiClientGen.Proofs.FinishedPrefix
import ApiClientGen.Proofs.GuidedRun
import ApiClientGen.Proofs.ScriptText
import ApiClientGen.Proofs.TwinRuns

/-!
The order of a listing. A run with an empty cache fetches every document, so what it writes
depends on what is served; where it ends well, its files are a goal that guides a run through the
same entries in any other order. The files of both are the same drafts in another order, and that
does not show where each draft has a place of its own.
-/
namespace ApiClientGen.ListingOrder

open CachedLoad Confinement FailingRuns FileContents FilePlaces FileTree FinishedPrefix Generate
  GuidedRun KeptDocuments OfflineRun OutputFiles Run RunEffect

variable {settings : Settings} {cache : Path} {client : Web.Client}
  {document later : String → ByteArray} {listing : Listing} {entry : ListingEntry}
  {entries : List ListingEntry} {resource : Resource} {resources : List Resource}
  {world after : World} {url : String} {value : Json}

theorem inside_pathFor (tree : FileTree) (cache : Path) (url : String) :
    Inside tree cache (tree.placeOf (Cache.pathFor cache url)) := by
  by_cases hkey : Cache.key url = ""
  · rw [pathFor_of_key_eq_empty cache hkey]
    exact List.prefix_rfl
  · rw [Inside, placeOf_pathFor tree cache hkey]
    exact List.prefix_append _ _

/-- A document that is not kept is fetched as it is served, and is kept then. -/
theorem fetched_of_unkept (h : Ends (Fetch.json cache client url) world (.ok value) after)
    (hserves : Serves world.server document) (hunkept : Unkept cache url world.files) :
    served document url = .ok value ∧ Room after.files cache url ∧
      after.files.isDirectory cache = .ok true ∧
        Acts {world.files.placeOf (Cache.pathFor cache url)} world after := by
  rcases ends_json_cases h with ⟨_, heq, -⟩ | ⟨_, body, heq, hvalue, ⟨rfl, hread⟩ | hstored⟩
  · cases heq
  · exact absurd (read_eq_ok_iff.mp hread).2 (hunkept body)
  · cases heq
    have hlater : Serves after.server document := by
      rw [hstored.acts.server_eq]
      exact hserves
    obtain ⟨target, hurl, rfl⟩ := served_of_obtained hlater hstored.obtained
    exact ⟨served_eq_ok hurl (readDocument_eq_ok_iff.mp hvalue),
      ⟨hstored.key_ne, isFile_of_read hstored.read_eq⟩, hstored.directory, hstored.acts⟩

theorem passes_of_writeResource {paths : List Path} (hgroup : settings.groupClass = "")
    (h : Ends (writeResource settings resource) world (.ok paths) after) :
    Passes settings resource := by
  intro hstrict
  obtain ⟨_, _, hown, -⟩ := ends_bind_ok_iff.mp h
  rw [writeOwnClass, if_pos hgroup] at hown
  obtain ⟨missing, _, hcheck, -⟩ := ends_bind_ok_iff.mp hown
  rw [checkReferences, hstrict] at hcheck
  split at hcheck
  · rename_i hempty
    exact List.isEmpty_iff.mp hempty
  · cases (ends_throw_iff.mp hcheck).1

theorem outputs_of_writeResource {outcome : Except Failure (List Path)}
    (h : Ends (writeResource settings resource) world outcome after) :
    Acts outputPlaces world after := by
  refine RunSteps.leaves_writeResource (lasting_acts outputPlaces).reports
    (fun draft hmem => ?_) h
  intro before outcome last hends
  exact (acts_of_writeText hends).mono (Set.singleton_subset_iff.mpr
    (outputPlace_placeOf before.files (isOutput_of_mem_resourceDrafts hmem)))

theorem acts_of_writeResources {outcome : Except Failure (List Path × List Resource)}
    (h : Ends (writeResources settings cache client listing entries) world outcome after) :
    Acts Set.univ world after :=
  (leaves_entries settings listing entries h).mono (Set.subset_univ _)

/-- Entries of which no document is kept give the resources that are served. -/
theorem served_of_writeResources {found : List Path × List Resource}
    (hgroup : settings.groupClass = "") (hserves : Serves world.server document)
    (hcache : world.files.isDirectory cache = .ok true)
    (hkeys : ((entries.map (Fetch.entryUrl settings.url listing)).map Cache.key).Nodup)
    (hunkept : ∀ entry ∈ entries,
      Unkept cache (Fetch.entryUrl settings.url listing entry) world.files)
    (h : Ends (writeResources settings cache client listing entries) world (.ok found) after) :
    List.Forall₂ (ServesResource document settings.url listing) entries found.2 ∧
      (∀ entry ∈ entries, Room after.files cache (Fetch.entryUrl settings.url listing entry)) ∧
        ∀ resource ∈ found.2, Passes settings resource := by
  induction entries generalizing world found with
  | nil =>
    obtain ⟨heq, -⟩ := ends_pure_iff.mp h
    cases heq
    exact ⟨.nil, List.forall_mem_nil _, List.forall_mem_nil _⟩
  | cons entry rest ih =>
    obtain ⟨resource, fetched, written, wrote, others, hfetch, hwrite, hothers, rfl⟩ :=
      ends_writeResources_cons_iff.mp h
    obtain ⟨said, value, read, hjson, hread, rfl⟩ := ends_resource_ok hfetch
    rw [List.forall_mem_cons] at hunkept
    rw [List.map_cons, List.map_cons, List.nodup_cons] at hkeys
    obtain ⟨hvalue, hroom, hdirectory, hfetched⟩ := fetched_of_unkept hjson hserves hunkept.1
    have hwrote := outputs_of_writeResource hwrite
    have hserver : wrote.server = world.server := hwrote.server_eq.trans hfetched.server_eq
    have hleft : ∀ other ∈ rest,
        Unkept cache (Fetch.entryUrl settings.url listing other) wrote.files := by
      intro other hmem
      have hkey : Cache.key (Fetch.entryUrl settings.url listing other) ≠
          Cache.key (Fetch.entryUrl settings.url listing entry) :=
        fun heq => hkeys.1 (heq ▸ List.mem_map_of_mem (List.mem_map_of_mem hmem))
      exact Unkept.of_outputs ((hunkept.2 other hmem).of_grows hfetched.grows
        (placeOf_pathFor_ne world.files cache hroom.key_ne hkey)) hwrote.grows hdirectory
    have hlater : Serves wrote.server document := by
      rw [hserver]
      exact hserves
    obtain ⟨hserved, hrooms, hpasses⟩ :=
      ih hlater (hwrote.grows.isDirectory hdirectory) hkeys.2 hleft hothers
    have hresource : ServesResource document settings.url listing entry
        (Fetch.withPath entry read) :=
      ⟨value, read, hvalue, FinalCache.readRecord_eq_ok_iff.mp hread, rfl⟩
    refine ⟨.cons hresource hserved, ?_, ?_⟩
    · exact List.forall_mem_cons.mpr
        ⟨(hroom.of_grows hwrote.grows).of_grows (acts_of_writeResources hothers).grows, hrooms⟩
    · exact List.forall_mem_cons.mpr ⟨passes_of_writeResource hgroup hwrite, hpasses⟩

/-- Before it reads the listing, a run writes only inside the directory of generated files. -/
theorem acts_of_prepare {outcome : Except Failure Path}
    (h : Ends (prepare settings) world outcome after) :
    Acts {place | Inside world.files settings.dest place} world after := by
  have hinside : ∀ {before after : FileTree}, after.here = before.here →
      {place | Inside after settings.dest place} =
        {place | Inside before settings.dest place} := by
    intro before after hhere
    simp only [Inside, placeOf_eq_of_here_eq hhere]
  have hR := lasting_acts_in hinside
  refine RunSteps.leaves_prepare hR.carried (fun path => ?_) ?_ h
  · exact (leaves_ensureDirectories path).mono fun hacts => hacts.mono (Set.empty_subset _)
  · intro before outcome last hends
    refine (acts_of_writeText hends).mono (Set.singleton_subset_iff.mpr ?_)
    have hplace : before.files.placeOf (baseDraft settings).1 =
        before.files.placeOf settings.dest ++ [baseFile] :=
      placeOf_child before.files settings.dest (by decide) (by decide) (by decide)
    rw [Set.mem_ofPred_eq, Inside, hplace]
    exact List.prefix_append _ _

/-- After the directories and the base class are made, no document is kept yet. -/
theorem unkept_of_prepare {base : Path} (hempty : Empty cache world.files)
    (hapart : Apart world.files settings.dest cache)
    (h : Ends (prepare settings) world (.ok base) after) (url : String) :
    Unkept cache url after.files :=
  Unkept.of_grows (hempty url) (acts_of_prepare h).grows
    fun hmem => hapart _ hmem (inside_pathFor world.files cache url)

/-- The listing of a run is the one that is served, and the first document that is kept. -/
theorem served_of_listed {listed : World} (hserves : Serves world.server document)
    (hempty : Empty cache world.files) (hapart : Apart world.files settings.dest cache)
    (h : Listed settings cache client world listing listed) :
    ServesListing document settings.url listing ∧ Room listed.files cache settings.url ∧
      listed.files.isDirectory cache = .ok true ∧ Acts Set.univ world listed ∧
        ∀ url, Cache.key url ≠ Cache.key settings.url → Unkept cache url listed.files := by
  obtain ⟨base, prepared, hprepare, hlisting⟩ := h
  have hprepared := acts_of_prepare hprepare
  have hbefore : Serves prepared.server document := by
    rw [hprepared.server_eq]
    exact hserves
  have hunkept := unkept_of_prepare hempty hapart hprepare
  obtain ⟨value, hjson, hread⟩ := ends_listing_ok hlisting
  obtain ⟨hvalue, hroom, hcache, hacts⟩ := fetched_of_unkept hjson hbefore (hunkept settings.url)
  refine ⟨⟨value, hvalue, FinalCache.readRecord_eq_ok_iff.mp hread⟩, hroom, hcache, ?_, ?_⟩
  · exact (lasting_acts Set.univ).trans (hprepared.mono (Set.subset_univ _))
      (hacts.mono (Set.subset_univ _))
  · intro url hkey
    exact (hunkept url).of_grows hacts.grows
      (placeOf_pathFor_ne prepared.files cache hroom.key_ne hkey)

/-- The files of a run that finished all its entries guide another run. -/
theorem guides_of_reached (hgroup : settings.groupClass = "")
    (hserves : Serves world.server document) (hempty : Empty cache world.files)
    (hapart : Apart world.files settings.dest cache)
    (hkeys : ((loadUrls settings.url listing).map Cache.key).Nodup)
    (h : Reached settings cache client world listing listing.apis [] resources after) :
    Guides settings cache document listing resources after.files := by
  have hwrites := h.writes
  obtain ⟨-, listed, written, hlisted, hresources⟩ := h
  obtain ⟨hlisting, hroot, hcache, hacts, hunkept⟩ :=
    served_of_listed hserves hempty hapart hlisted
  obtain ⟨base, prepared, hprepare, hfetch⟩ := hlisted
  have hmiddle : Serves listed.server document := by
    rw [hacts.server_eq]
    exact hserves
  have hlater := hkeys
  rw [loadUrls, List.map_cons, List.nodup_cons] at hlater
  have hothers : ∀ entry ∈ listing.apis,
      Unkept cache (Fetch.entryUrl settings.url listing entry) listed.files :=
    fun entry hmem => hunkept _
      fun heq => hlater.1 (heq ▸ List.mem_map_of_mem (List.mem_map_of_mem hmem))
  obtain ⟨hserved, hrooms, hpasses⟩ :=
    served_of_writeResources hgroup hmiddle hcache hlater.2 hothers hresources
  have hgrows := (acts_of_writeResources hresources).grows
  have hfurther := ((grows_of_ends_listing hfetch).mono (Set.subset_univ _)).trans hgrows
  obtain ⟨-, hdest, hinterfaces⟩ := TwinRuns.directories_of_prepare hprepare
  refine ⟨hfurther.isDirectory hdest, fun hsplit => hfurther.isDirectory (hinterfaces hsplit), ?_,
    ?_, hkeys, hlisting, hserved, hpasses⟩
  · intro draft hmem
    obtain ⟨front, back, hlist⟩ := List.append_of_mem hmem
    rw [hlist] at hwrites
    obtain ⟨between, -, hread, hback⟩ := hwrites.split
    exact hback.grows.isFile (isFile_of_read hread)
  · rw [loadUrls, List.forall_mem_cons, List.forall_mem_map]
    exact ⟨hroot.of_grows hgrows, hrooms⟩

/-! ### Another order -/

/-- A service gives the listing of another one with its entries in another order, and for the
entries the same documents. -/
structure Reordered (root : String) (document later : String → ByteArray) (listing : Listing)
    (entries : List ListingEntry) : Prop where
  perm : entries.Perm listing.apis
  listed : ServesListing document root listing
  relisted : ServesListing later root { listing with apis := entries }
  served_eq : ∀ entry ∈ listing.apis,
    served later (Fetch.entryUrl root listing entry) =
      served document (Fetch.entryUrl root listing entry)

/-- Services that differ at one address only serve the same document at a URL that leads to
another one. -/
theorem served_eq_of_ne {address : String}
    (hsame : ∀ other, other ≠ address → later other = document other)
    (hne : ∀ target, Web.Url.ofString url = .ok target → target.target.text ≠ address) :
    served later url = served document url := by
  rw [served, served]
  cases hurl : Web.Url.ofString url with
  | error fault => rfl
  | ok target =>
    change Fetch.readDocument url (later target.target.text) =
      Fetch.readDocument url (document target.target.text)
    rw [hsame _ (hne target hurl)]

/-- Two services with the same documents but for their listings are reordered ones of each other
as soon as no entry is requested at the address of the listing. -/
theorem reordered_of_ne {root address : String} (hperm : entries.Perm listing.apis)
    (hlisted : ServesListing document root listing)
    (hrelisted : ServesListing later root { listing with apis := entries })
    (hsame : ∀ other, other ≠ address → later other = document other)
    (hne : ∀ entry ∈ listing.apis, ∀ target,
      Web.Url.ofString (Fetch.entryUrl root listing entry) = .ok target →
        target.target.text ≠ address) : Reordered root document later listing entries :=
  ⟨hperm, hlisted, hrelisted, fun entry hmem => served_eq_of_ne hsame (hne entry hmem)⟩

theorem loadUrls_perm (root : String) (h : entries.Perm listing.apis) :
    (loadUrls root { listing with apis := entries }).Perm (loadUrls root listing) :=
  (h.map (Fetch.entryUrl root listing)).cons root

theorem finishedDrafts_perm {others : List Resource} (h : others.Perm resources) :
    (finishedDrafts settings others).Perm (finishedDrafts settings resources) :=
  (h.flatMap_right (resourceDrafts settings)).cons (baseDraft settings)

/-- What guides a run guides one through the same entries in another order. -/
theorem guides_of_reordered {goal : FileTree}
    (h : Guides settings cache document listing resources goal)
    (hreordered : Reordered settings.url document later listing entries) :
    ∃ others, others.Perm resources ∧
      Guides settings cache later { listing with apis := entries } others goal := by
  obtain ⟨others, hserved, hperm⟩ := List.perm_comp_forall₂ hreordered.perm h.served
  have hresources : List.Forall₂
      (ServesResource later settings.url { listing with apis := entries }) entries others := by
    refine ((List.forall₂_and_left entries others).mpr ⟨fun _ => id, hserved⟩).imp ?_
    rintro entry resource ⟨hmem, value, found, hvalue, hfound⟩
    rw [← hreordered.served_eq entry (hreordered.perm.subset hmem)] at hvalue
    exact ⟨value, found, hvalue, hfound⟩
  have hurls := loadUrls_perm settings.url hreordered.perm
  refine ⟨others, hperm, h.dest, h.interfaces, ?_, ?_, ?_, hreordered.relisted, ?_, ?_⟩
  · exact fun draft hmem => h.files draft ((finishedDrafts_perm hperm).subset hmem)
  · exact fun url hmem => h.room url (hurls.subset hmem)
  · exact (hurls.map Cache.key).nodup_iff.mpr h.keys
  · exact hresources
  · exact fun resource hmem => h.passes resource (hperm.subset hmem)

/-- Drafts that have a place each can be written in any order. -/
theorem overwritten_perm {tree : FileTree} {place : FilePlace} {list other : List Draft}
    (h : other.Perm list) (hplaces : (list.map fun draft => tree.placeOf draft.1).Nodup)
    (content : Option ByteArray) :
    overwritten tree place other content = overwritten tree place list content := by
  induction h generalizing content with
  | nil => rfl
  | cons draft _ ih => exact ih (List.nodup_cons.mp hplaces).2 _
  | swap first second rest =>
    have hne : tree.placeOf first.1 ≠ tree.placeOf second.1 := by
      intro heq
      simp [heq] at hplaces
    simp only [overwritten]
    by_cases hfirst : tree.placeOf first.1 = place
    · rw [if_pos hfirst, if_pos hfirst, if_neg fun hsecond => hne (hfirst.trans hsecond.symm)]
    · rw [if_neg hfirst, if_neg hfirst]
  | trans hleft hright ihleft ihright =>
    have hmiddle := ((hright.map fun draft => tree.placeOf draft.1).nodup_iff).mpr hplaces
    rw [ihleft hmiddle, ihright hplaces]

/-- Where every resource has a class of its own, a run has ended well when it has finished all
entries. -/
theorem ends_runWith_iff_reached (hgroup : settings.groupClass = "") {paths : List Path} :
    Ends (runWith settings cache client) world (.ok paths) after ↔ ∃ listing resources reached,
      Reached settings cache client world listing listing.apis [] resources reached ∧
      paths = (finishedDrafts settings resources).map Prod.fst ∧
      after =
        { reached with stdout := reached.stdout ++ closingLine settings paths ++ "\n" } := by
  rw [ends_runWith_iff]
  constructor
  · rintro ⟨base, prepared, listing, listed, written, resources, wrote, grouped, last, hprepare,
      hlisting, hresources, hgrouped, hpaths, rfl⟩
    rw [writeGroup, if_pos hgroup] at hgrouped
    obtain ⟨hnone, rfl⟩ := ends_pure_iff.mp hgrouped
    cases hnone
    obtain ⟨rfl, -⟩ := ends_prepare_ok hprepare
    obtain ⟨rfl, -⟩ := ends_writeResources_ok hresources
    rw [List.append_nil] at hpaths
    exact ⟨listing, resources, last,
      ⟨(List.append_nil _).symm, listed, _, ⟨_, prepared, hprepare, hlisting⟩, hresources⟩,
      hpaths, rfl⟩
  · rintro ⟨listing, resources, reached,
      ⟨-, listed, written, ⟨base, prepared, hprepare, hlisting⟩, hresources⟩, hpaths, rfl⟩
    have hgrouped : Ends (writeGroup settings resources) reached (.ok []) reached := by
      rw [writeGroup, if_pos hgroup]
      exact ends_pure_iff.mpr ⟨rfl, rfl⟩
    obtain ⟨rfl, -⟩ := ends_prepare_ok hprepare
    obtain ⟨rfl, -⟩ := ends_writeResources_ok hresources
    refine ⟨_, prepared, listing, listed, _, resources, reached, [], reached, hprepare, hlisting,
      hresources, hgrouped, ?_, rfl⟩
    rw [hpaths, List.append_nil]
    rfl

theorem eq_of_servesListing {root : String} {found : Listing}
    (h : ServesListing document root listing) (hfound : ServesListing document root found) :
    found = listing := by
  obtain ⟨value, hvalue, hgood⟩ := h
  obtain ⟨other, hother, hread⟩ := hfound
  cases hvalue.symm.trans hother
  cases hgood.symm.trans hread
  rfl

/-- The order of the entries of a listing does not show in the files of a run: where all documents
are fetched, under keys of their own, and every generated file has a place of its own, the run
through the same entries in another order ends well too and leaves the same files. -/
theorem reordered_listing_gives_same_files {first second : World} {paths : List Path}
    (hgroup : settings.groupClass = "") (hfirst : Serves first.server document)
    (hsecond : Serves second.server later) (hfiles : second.files = first.files)
    (hempty : Empty cache first.files) (hapart : Apart first.files settings.dest cache)
    (hreordered : Reordered settings.url document later listing entries)
    (hkeys : ((loadUrls settings.url listing).map Cache.key).Nodup)
    (hends : Ends (runWith settings cache client) first (.ok paths) after)
    (hplaces : (paths.map first.files.placeOf).Nodup) (other : Web.Client) :
    ∃ others last, Ends (runWith settings cache other) second (.ok others) last ∧
      others.Perm paths ∧ ∀ place, Inside first.files settings.dest place →
        content? last.files place = content? after.files place := by
  obtain ⟨found, resources, reached, hreached, rfl, rfl⟩ :=
    (ends_runWith_iff_reached hgroup).mp hends
  obtain ⟨listed, _, hlisted, -⟩ := hreached.finished
  obtain rfl := eq_of_servesListing hreordered.listed
    (served_of_listed hfirst hempty hapart hlisted).1
  have hguides := guides_of_reached hgroup hfirst hempty hapart hkeys hreached
  obtain ⟨others, hperm, hguided⟩ := guides_of_reordered hguides hreordered
  have hgrows : Grows Set.univ second.files reached.files := by
    rw [hfiles]
    exact hreached.writesOnly.grows.mono (Set.subset_univ _)
  have hunkept : ∀ url, Unkept cache url second.files := by
    intro url
    rw [hfiles]
    exact hempty url
  obtain ⟨last, hlast⟩ := hguided.reached other hgrows hsecond fun url _ => hunkept url
  refine ⟨_, _, (ends_runWith_iff_reached hgroup).mpr ⟨_, others, last, hlast, rfl, rfl⟩, ?_, ?_⟩
  · exact (finishedDrafts_perm hperm).map Prod.fst
  · intro place hplace
    have hkept := hapart.not_mem_keptPlaces hplace
    rw [List.map_map] at hplaces
    rw [← hfiles] at hkept
    have hcontent := content?_of_reached hlast ((lasting_keepsOnly cache).refl last) hkept
    rw [hfiles] at hcontent hkept
    rw [hcontent, content?_of_reached hreached ((lasting_keepsOnly cache).refl reached) hkept]
    exact overwritten_perm (finishedDrafts_perm hperm) hplaces _

/-- Where only classes are written, a run leaves the base class and one class for each
resource. -/
theorem finishedDrafts_of_classes (hgroup : settings.groupClass = "")
    (hsplit : settings.splitInterfaces = false) : finishedDrafts settings resources =
      baseDraft settings :: resources.map fun resource =>
        classDraft settings (Naming.className resource) resource := by
  have hone : resourceDrafts settings = fun resource =>
      [classDraft settings (Naming.className resource) resource] := by
    funext resource
    rw [resourceDrafts, ownDrafts, if_pos hgroup, splitDrafts, hsplit, if_neg Bool.false_ne_true,
      List.append_nil]
  rw [finishedDrafts, hone, List.map_eq_flatMap]

/-- What a service serves: its listing at one address, and an empty document everywhere else. -/
def serviceDocument (listing address : String) : ByteArray :=
  (if address = "http://a" then listing else "\x7b\x7d").toUTF8

def serviceWorld (listing : String) : World where
  files := ⟨[], OrderedMap.empty⟩
  server := fun _ address => .response ⟨200, none, serviceDocument listing address⟩

theorem files_service (listing : String) :
    (serviceWorld listing).files = ⟨[], OrderedMap.empty⟩ :=
  rfl

theorem serves_service (listing : String) :
    Serves (serviceWorld listing).server (serviceDocument listing) := by
  intro earlier address
  have hsuccess : Web.isSuccess 200 = true := by decide
  exact ⟨⟨200, none, serviceDocument listing address⟩, rfl, hsuccess, rfl⟩

theorem apart_repeating (listing : String) :
    Apart (serviceWorld listing).files repeatingSettings.dest repeatingSettings.cacheDir := by
  rintro place ⟨rest, rfl⟩ ⟨other, heq⟩
  have hdest : (serviceWorld listing).files.placeOf repeatingSettings.dest = ["generated"] := rfl
  have hcache : (serviceWorld listing).files.placeOf repeatingSettings.cacheDir = ["cache"] := rfl
  rw [hdest, hcache] at heq
  simp at heq

theorem served_at {address : String}
    (htarget : (Web.Url.ofString url).map (·.target.text) = .ok address)
    (h : Json.ofBytes (document address) = .ok value) : served document url = .ok value := by
  cases hurl : Web.Url.ofString url with
  | error fault =>
    rw [hurl] at htarget
    cases htarget
  | ok target =>
    rw [hurl] at htarget
    rw [← Except.ok.inj htarget] at h
    exact served_eq_ok hurl h

section Service

variable {text : String} {root : Resource}

/-- The listing is served at its address in both spellings, and an empty document elsewhere. -/
theorem served_service (h : Json.ofBytes text.toUTF8 = .ok value) :
    (∀ url ∈ ["http://a", "http://a:80"], served (serviceDocument text) url = .ok value) ∧
      ∀ url ∈ ["http://a/b", "http://a/c"],
        served (serviceDocument text) url = .ok (.object []) := by
  have hroot : Json.ofBytes (serviceDocument text "http://a") = .ok value := by
    rw [serviceDocument, if_pos rfl, h]
  have hother : ∀ address, address ≠ "http://a" →
      Json.ofBytes (serviceDocument text address) = .ok (.object []) := by
    intro address hne
    rw [serviceDocument, if_neg hne]
    cbv
  simp only [List.forall_mem_cons, List.not_mem_nil, false_implies, implies_true, and_true]
  exact ⟨⟨served_at (by cbv) hroot, served_at (by cbv) hroot⟩,
    served_at (by cbv) (hother "http://a/b" (by decide)),
    served_at (by cbv) (hother "http://a/c" (by decide))⟩

/-- A tree in which a run on such a service comes to its end. -/
def serviceGoal : FileTree :=
  ⟨[], ⟨[(["generated"], .directory), (["generated", "Api.ts"], .file "".toUTF8),
    (["generated", "B.ts"], .file "".toUTF8), (["generated", "C.ts"], .file "".toUTF8),
    (["generated", "80.ts"], .file "".toUTF8), (["cache"], .directory),
    (["cache", "httpa"], .file "".toUTF8), (["cache", "httpab"], .file "".toUTF8),
    (["cache", "httpac"], .file "".toUTF8), (["cache", "httpa80"], .file "".toUTF8)], by decide⟩⟩

theorem grows_serviceGoal (text : String) :
    Grows Set.univ (serviceWorld text).files serviceGoal := by
  refine ⟨rfl, fun place => ?_⟩
  by_cases hroot : place = []
  · rw [hroot, node?_nil, node?_nil]
    exact .inl rfl
  · have hnone : (serviceWorld text).files.node? place = none := if_neg hroot
    rw [hnone]
    cases hnode : serviceGoal.node? place with
    | none => exact .inl rfl
    | some node =>
      cases node with
      | directory => exact .inr (.inl ⟨rfl, rfl⟩)
      | file content => exact .inr (.inr ⟨Set.mem_univ _, by simp, content, rfl⟩)

theorem guides_service
    (hlisted : ServesListing document repeatingSettings.url listing)
    (hserved : List.Forall₂ (ServesResource document repeatingSettings.url listing) listing.apis
      resources)
    (hurls : loadUrls repeatingSettings.url listing ⊆
      ["http://a", "http://a/b", "http://a/c", "http://a:80"])
    (hkeys : ((loadUrls repeatingSettings.url listing).map Cache.key).Nodup)
    (hnames : resources.map Naming.className ⊆ ["B", "C", "80"]) :
    Guides repeatingSettings repeatingSettings.cacheDir document listing resources
      serviceGoal := by
  have hrooms : ∀ url ∈ ["http://a", "http://a/b", "http://a/c", "http://a:80"],
      Room serviceGoal repeatingSettings.cacheDir url := by
    simp only [List.forall_mem_cons, List.not_mem_nil, false_implies, implies_true, and_true]
    exact ⟨⟨by decide, by cbv⟩, ⟨by decide, by cbv⟩, ⟨by decide, by cbv⟩, ⟨by decide, by cbv⟩⟩
  have hclasses : ∀ name ∈ ["B", "C", "80"],
      serviceGoal.isFile (repeatingSettings.dest.child (name ++ ".ts")) = .ok true := by
    simp only [List.forall_mem_cons, List.not_mem_nil, false_implies, implies_true, and_true]
    exact ⟨by cbv, by cbv, by cbv⟩
  refine ⟨by cbv, fun hsplit => absurd hsplit Bool.false_ne_true, ?_,
    fun url hmem => hrooms url (hurls hmem), hkeys, hlisted, hserved,
    fun resource _ hstrict => absurd hstrict Bool.false_ne_true⟩
  intro draft hmem
  rw [finishedDrafts_of_classes rfl rfl] at hmem
  rcases List.mem_cons.mp hmem with rfl | hmem
  · change serviceGoal.isFile (repeatingSettings.dest.child baseFile) = .ok true
    cbv
  · obtain ⟨resource, hresource, rfl⟩ := List.mem_map.mp hmem
    rw [classDraft_fst]
    exact hclasses _ (hnames (List.mem_map_of_mem hresource))

def plainListing : Listing where
  apis := [{ path := "/b" }, { path := "/c" }]

def plainText : String := "\x7b\"apis\":[\x7b\"path\":\"/b\"\x7d,\x7b\"path\":\"/c\"\x7d]\x7d"

def swappedText : String := "\x7b\"apis\":[\x7b\"path\":\"/c\"\x7d,\x7b\"path\":\"/b\"\x7d]\x7d"

theorem ofBytes_plain : Json.ofBytes plainText.toUTF8 =
    .ok (.object [("apis", .list [.object [("path", .string "/b")],
      .object [("path", .string "/c")]])]) := by
  rw [Json.ofBytes, ByteArray.toList, ScriptText.loop_eq]
  cbv

theorem ofBytes_swapped : Json.ofBytes swappedText.toUTF8 =
    .ok (.object [("apis", .list [.object [("path", .string "/c")],
      .object [("path", .string "/b")]])]) := by
  rw [Json.ofBytes, ByteArray.toList, ScriptText.loop_eq]
  cbv

theorem reordered_plain : Reordered "http://a" (serviceDocument plainText)
    (serviceDocument swappedText) plainListing [{ path := "/c" }, { path := "/b" }] := by
  have haddress : ∀ entry ∈ plainListing.apis,
      (Web.Url.ofString (Fetch.entryUrl "http://a" plainListing entry)).map (·.target.text) =
        .ok ("http://a" ++ entry.path) := by
    simp only [plainListing, List.forall_mem_cons, List.not_mem_nil, false_implies, implies_true,
      and_true]
    exact ⟨by cbv, by cbv⟩
  have hpath : ∀ entry ∈ plainListing.apis, "http://a" ++ entry.path ≠ "http://a" := by
    simp only [plainListing, List.forall_mem_cons, List.not_mem_nil, false_implies, implies_true,
      and_true]
    exact ⟨by decide, by decide⟩
  have hsame : ∀ other, other ≠ "http://a" →
      serviceDocument swappedText other = serviceDocument plainText other := by
    intro other hother
    rw [serviceDocument, serviceDocument, if_neg hother, if_neg hother]
  refine reordered_of_ne (.swap _ _ _) ⟨_, (served_service ofBytes_plain).1 _ (by decide), by rfl⟩
    ⟨_, (served_service ofBytes_swapped).1 _ (by decide), by rfl⟩ hsame ?_
  intro entry hmem target htarget
  have htext := haddress entry hmem
  rw [htarget] at htext
  have htext : target.target.text = "http://a" ++ entry.path := Except.ok.inj htext
  rw [htext]
  exact hpath entry hmem

def emptyResource (path : String) : Resource where
  resourcePath := some path

theorem guides_plain : Guides repeatingSettings repeatingSettings.cacheDir
    (serviceDocument plainText) plainListing [emptyResource "/b", emptyResource "/c"]
    serviceGoal := by
  have hnames :
      [emptyResource "/b", emptyResource "/c"].map Naming.className = ["B", "C"] := by cbv
  have hserved := (served_service ofBytes_plain).2
  refine guides_service reordered_plain.listed (.cons ?_ (.cons ?_ .nil)) (by decide)
    (by decide) ?_
  · exact ⟨_, _, hserved "http://a/b" (by decide), by rfl, by cbv⟩
  · exact ⟨_, _, hserved "http://a/c" (by decide), by rfl, by cbv⟩
  · rw [hnames]
    decide

def plainPaths : List Path :=
  [⟨.here, ["generated", "Api.ts"]⟩, ⟨.here, ["generated", "B.ts"]⟩,
    ⟨.here, ["generated", "C.ts"]⟩]

theorem ends_run_plain : ∃ after,
    Ends (run repeatingSettings ⟨false⟩) (serviceWorld plainText) (.ok plainPaths) after := by
  obtain ⟨reached, hreached⟩ := guides_plain.reached ⟨false⟩ (grows_serviceGoal plainText)
    (serves_service plainText) fun url _ => empty_colliding repeatingSettings.cacheDir url
  have hfirst : Naming.className (emptyResource "/b") = "B" := by cbv
  have hsecond : Naming.className (emptyResource "/c") = "C" := by cbv
  have hpaths : plainPaths = (finishedDrafts repeatingSettings
      [emptyResource "/b", emptyResource "/c"]).map Prod.fst := by
    rw [finishedDrafts_of_classes rfl rfl]
    simp only [List.map_cons, List.map_nil, hfirst, hsecond, classDraft_fst]
    decide
  exact ⟨_, (ends_runWith_iff_reached rfl).mpr ⟨plainListing, _, reached, hreached, hpaths, rfl⟩⟩

theorem swapped_listing_gives_same_files : ∃ after others last,
    Ends (run repeatingSettings ⟨false⟩) (serviceWorld plainText) (.ok plainPaths) after ∧
    Ends (run repeatingSettings ⟨true⟩) (serviceWorld swappedText) (.ok others) last ∧
    others.Perm plainPaths ∧
    ∀ place, Inside (serviceWorld plainText).files repeatingSettings.dest place →
      content? last.files place = content? after.files place := by
  obtain ⟨after, hends⟩ := ends_run_plain
  have hkeys : ((loadUrls "http://a" plainListing).map Cache.key).Nodup := by decide
  have hplaces : (plainPaths.map (serviceWorld plainText).files.placeOf).Nodup := by decide
  obtain ⟨others, last, hlast, hperm, hsame⟩ := reordered_listing_gives_same_files rfl
    (serves_service plainText) (serves_service swappedText) rfl
    (empty_colliding repeatingSettings.cacheDir) (apart_repeating plainText) reordered_plain hkeys
    hends hplaces ⟨true⟩
  exact ⟨after, others, last, hends, hlast, hperm, hsame⟩

/-- A listing whose first entry is requested at the address of the listing itself, with the port
spelled out. -/
def respelledText : String :=
  "\x7b\"apis\":[" ++
    "\x7b\"path\":\":80\",\"operations\":[\x7b\"method\":\"\",\"nickname\":\"b\"\x7d]\x7d," ++
    "\x7b\"path\":\"/c\",\"operations\":[\x7b\"method\":\"\",\"nickname\":\"d\"\x7d]\x7d]\x7d"

def turnedText : String :=
  "\x7b\"apis\":[" ++
    "\x7b\"path\":\"/c\",\"operations\":[\x7b\"method\":\"\",\"nickname\":\"d\"\x7d]\x7d," ++
    "\x7b\"path\":\":80\",\"operations\":[\x7b\"method\":\"\",\"nickname\":\"b\"\x7d]\x7d]\x7d"

def callingValue (path nickname : String) : Json :=
  .object [("path", .string path), ("operations", .list [.object [("method", .string ""),
    ("nickname", .string nickname)]])]

def calling (path nickname : String) : Api :=
  { path := path, operations := [{ method := "", nickname := nickname }] }

theorem ofBytes_respelled : Json.ofBytes respelledText.toUTF8 =
    .ok (.object [("apis", .list [callingValue ":80" "b", callingValue "/c" "d"])]) := by
  rw [Json.ofBytes, ByteArray.toList, ScriptText.loop_eq]
  cbv

theorem ofBytes_turned : Json.ofBytes turnedText.toUTF8 =
    .ok (.object [("apis", .list [callingValue "/c" "d", callingValue ":80" "b"])]) := by
  rw [Json.ofBytes, ByteArray.toList, ScriptText.loop_eq]
  cbv

/-- A run on the listing ends well, and the class of the listing itself is that of its
resource. -/
theorem ends_run_respelled (front : List Resource) {back : List Resource}
    (h : Guides repeatingSettings repeatingSettings.cacheDir (serviceDocument text) listing
      (front ++ root :: back) serviceGoal)
    (hroot : Naming.className root = "80")
    (hback : ∀ resource ∈ back, Naming.className resource = "C") : ∃ after,
    Ends (run repeatingSettings ⟨false⟩) (serviceWorld text)
      (.ok ((finishedDrafts repeatingSettings (front ++ root :: back)).map Prod.fst)) after ∧
    content? after.files ["generated", "80.ts"] =
      some (Declaration.classText false true "80" root).toUTF8 := by
  obtain ⟨reached, hreached⟩ := h.reached ⟨false⟩ (grows_serviceGoal text)
    (serves_service text) fun url _ => empty_colliding repeatingSettings.cacheDir url
  refine ⟨_, (ends_runWith_iff_reached rfl).mpr ⟨listing, _, reached, hreached, rfl, rfl⟩, ?_⟩
  have hwrites := hreached.writes
  rw [finishedDrafts_of_classes rfl rfl, List.map_append, List.map_cons, hroot,
    ← List.cons_append] at hwrites
  have hread := hwrites.read_eq (isOutput_classDraft repeatingSettings "80" root) (by
    intro draft hmem
    obtain ⟨resource, hresource, rfl⟩ := List.mem_map.mp hmem
    rw [hback resource hresource, classDraft_fst, classDraft_fst, files_service text]
    decide)
  have hcontent := content?_of_read hread
  have hplace : reached.files.placeOf (classDraft repeatingSettings "80" root).1 =
      ["generated", "80.ts"] := by
    rw [hwrites.grows.placeOf_eq, classDraft_fst, files_service text]
    decide
  rwa [hplace] at hcontent

def respelledListing : Listing where
  apis := [{ path := ":80" }, { path := "/c" }]

/-- The resource that the listing itself is read as. -/
def callingResource (apis : List Api) : Resource where
  resourcePath := some ":80"
  apis := apis

theorem guides_respelledText : Guides repeatingSettings repeatingSettings.cacheDir
    (serviceDocument respelledText) respelledListing
    [callingResource [calling ":80" "b", calling "/c" "d"], emptyResource "/c"] serviceGoal := by
  obtain ⟨hroot, hother⟩ := served_service ofBytes_respelled
  have hnames : [callingResource [calling ":80" "b", calling "/c" "d"], emptyResource "/c"].map
      Naming.className = ["80", "C"] := by cbv
  refine guides_service ⟨_, hroot "http://a" (by decide), by rfl⟩ (.cons ?_ (.cons ?_ .nil))
    (by decide) (by decide) ?_
  · exact ⟨_, _, hroot "http://a:80" (by decide), by rfl, by cbv⟩
  · exact ⟨_, _, hother "http://a/c" (by decide), by rfl, by cbv⟩
  · rw [hnames]
    decide

theorem guides_turnedText : Guides repeatingSettings repeatingSettings.cacheDir
    (serviceDocument turnedText)
    { respelledListing with apis := [{ path := "/c" }, { path := ":80" }] }
    [emptyResource "/c", callingResource [calling "/c" "d", calling ":80" "b"]] serviceGoal := by
  obtain ⟨hroot, hother⟩ := served_service ofBytes_turned
  have hnames : [emptyResource "/c", callingResource [calling "/c" "d", calling ":80" "b"]].map
      Naming.className = ["C", "80"] := by cbv
  refine guides_service ⟨_, hroot "http://a" (by decide), by rfl⟩ (.cons ?_ (.cons ?_ .nil))
    (by decide) (by decide) ?_
  · exact ⟨_, _, hother "http://a/c" (by decide), by rfl, by cbv⟩
  · exact ⟨_, _, hroot "http://a:80" (by decide), by rfl, by cbv⟩
  · rw [hnames]
    decide

/-- The entry that is the listing itself shows the order of the entries: all documents but the
listing are the same, and still its class differs. -/
theorem respelled_entry_shows_order : ∃ paths after others last place,
    repeatingSettings.groupClass = "" ∧
    Serves (serviceWorld respelledText).server (serviceDocument respelledText) ∧
    Serves (serviceWorld turnedText).server (serviceDocument turnedText) ∧
    (serviceWorld turnedText).files = (serviceWorld respelledText).files ∧
    (∀ address, address ≠ "http://a" →
      serviceDocument turnedText address = serviceDocument respelledText address) ∧
    ServesListing (serviceDocument respelledText) "http://a" respelledListing ∧
    ServesListing (serviceDocument turnedText) "http://a"
      { respelledListing with apis := respelledListing.apis.reverse } ∧
    ((loadUrls "http://a" respelledListing).map Cache.key).Nodup ∧
    Empty repeatingSettings.cacheDir (serviceWorld respelledText).files ∧
    Apart (serviceWorld respelledText).files repeatingSettings.dest repeatingSettings.cacheDir ∧
    Ends (run repeatingSettings ⟨false⟩) (serviceWorld respelledText) (.ok paths) after ∧
    (paths.map (serviceWorld respelledText).files.placeOf).Nodup ∧
    Ends (run repeatingSettings ⟨false⟩) (serviceWorld turnedText) (.ok others) last ∧
    Inside (serviceWorld respelledText).files repeatingSettings.dest place ∧
    content? last.files place ≠ content? after.files place := by
  have hfirst := guides_respelledText
  have hsecond := guides_turnedText
  have hroot :
      Naming.className (callingResource [calling ":80" "b", calling "/c" "d"]) = "80" := by
    cbv
  have hback : Naming.className (emptyResource "/c") = "C" := by cbv
  obtain ⟨after, hends, hcontent⟩ :=
    ends_run_respelled [] hfirst hroot (List.forall_mem_singleton.mpr hback)
  obtain ⟨last, hlast, hother⟩ :=
    ends_run_respelled [emptyResource "/c"] hsecond (by cbv) (List.forall_mem_nil _)
  refine ⟨_, after, _, last, ["generated", "80.ts"], rfl, serves_service _, serves_service _, rfl,
    ?_, hfirst.listed, hsecond.listed, hfirst.keys, empty_colliding _, apart_repeating _,
    hends, ?_, hlast, ?_, ?_⟩
  · intro address hne
    rw [serviceDocument, serviceDocument, if_neg hne, if_neg hne]
  · rw [List.nil_append, finishedDrafts_of_classes rfl rfl]
    simp only [List.map_cons, List.map_nil, hroot, hback, classDraft_fst]
    decide
  · rw [Inside]
    decide
  · rw [hcontent, hother]
    decide +kernel

end Service

end ApiClientGen.ListingOrder
