import ApiClientGen.Proofs.Confinement
import ApiClientGen.Proofs.FailingRuns
import ApiClientGen.Proofs.FailureCauses
import ApiClientGen.Proofs.SplitFiles

/-!
What a run that fails leaves behind. An entry that cannot be fetched or whose class fails its
check leaves the files of the entries before it and nothing of its own, and no later entry is
asked for. The check of a class comes before its file is written; with one class for all resources
it comes behind the files of all interfaces.
-/
namespace ApiClientGen.FinishedPrefix

open Confinement FailingRuns FailureCauses FileContents Generate KeptDocuments OutputFiles
  RequestTrail Run RunEffect

variable {settings : Settings} {cache : Path} {client : Web.Client} {listing : Listing}
  {front back : List ListingEntry} {entry : ListingEntry} {resources : List Resource}
  {world reached after : World} {failure : Failure} {place : FilePlace} {tree : FileTree}

/-- No place lies inside both directories. -/
def Apart (tree : FileTree) (first second : Path) : Prop :=
  ∀ place, Inside tree first place → ¬ Inside tree second place

theorem Apart.not_mem_keptPlaces (h : Apart tree settings.dest cache)
    (hplace : Inside tree settings.dest place) : place ∉ keptPlaces cache tree := by
  rintro ⟨url, hkey, heq⟩
  apply h place hplace
  rw [Inside, heq, FilePlaces.placeOf_pathFor tree cache hkey]
  exact List.prefix_append _ _

/-- Handling an entry fails before anything is written for it: its resource cannot be fetched, or
its class fails a strict check. -/
inductive EntryRefused (settings : Settings) (cache : Path) (client : Web.Client)
    (listing : Listing) (entry : ListingEntry) (before : World) : Failure → World → Prop
  | fetch {failure : Failure} {after : World} :
    Ends (Fetch.resource cache client settings.url listing entry) before (.error failure) after →
      EntryRefused settings cache client listing entry before failure after
  | check {resource : Resource} {failure : Failure} {after : World} :
    Ends (Fetch.resource cache client settings.url listing entry) before (.ok resource) after →
      settings.groupClass = "" →
      CheckFails settings (Naming.className resource) resource failure →
        EntryRefused settings cache client listing entry before failure after

theorem EntryRefused.entryFails
    (h : EntryRefused settings cache client listing entry reached failure after) :
    EntryFails settings cache client listing entry reached failure after := by
  cases h with
  | fetch hfails => exact .fetch hfails
  | @check resource _ _ hfetch hgroup hcheck =>
    have hown : Ends (writeOwnClass settings resource) after (.error failure) after := by
      rw [writeOwnClass, if_pos hgroup]
      exact ends_writeClass_of_checkFails hcheck after
    exact .write hfetch hown.bind_error

/-- An entry fails before anything is written for it, unless the system refuses a file. -/
theorem entryRefused_of_entryFails
    (h : EntryFails settings cache client listing entry reached failure after)
    (hfile : ∀ error, failure ≠ .file error) :
    EntryRefused settings cache client listing entry reached failure after := by
  cases h with
  | fetch hfails => exact .fetch hfails
  | write hfetch hwrite =>
    rcases ends_writeResource_error hwrite with ⟨hgroup, hcheck, rfl⟩ | ⟨error, heq, -⟩
    · exact .check hfetch hgroup hcheck
    · exact absurd heq (hfile error)

theorem keepsOnly_of_resource {outcome : Except Failure Resource}
    (h : Ends (Fetch.resource cache client settings.url listing entry) reached outcome after) :
    KeepsOnly cache reached after :=
  RunSteps.leaves_resource (lasting_keepsOnly cache).prints leaves_fetch settings.url listing
    entry h

theorem EntryRefused.keepsOnly
    (h : EntryRefused settings cache client listing entry reached failure after) :
    KeepsOnly cache reached after := by
  cases h with
  | fetch hfails => exact keepsOnly_of_resource hfails
  | check hfetch _ _ => exact keepsOnly_of_resource hfetch

theorem EntryRefused.asks
    (h : EntryRefused settings cache client listing entry reached failure after) :
    Asks client [Fetch.entryUrl settings.url listing entry] reached after := by
  cases h with
  | fetch hfails => exact leaves_resource cache client settings.url listing entry hfails
  | check hfetch _ _ => exact leaves_resource cache client settings.url listing entry hfetch

/-- As long as only documents are kept, the files are those of the finished resources. -/
theorem content?_of_reached
    (h : Reached settings cache client world listing front back resources reached)
    (hkeeps : KeepsOnly cache reached after) (hplace : place ∉ keptPlaces cache world.files) :
    content? after.files place =
      contentAfter world.files (finishedDrafts settings resources) place := by
  have honly : WritesOnly cache world after :=
    (lasting_writesOnly cache).trans h.writesOnly hkeeps.writesOnly
  have hwrites := h.writes.append hkeeps.writes
  rw [List.append_nil] at hwrites
  exact content?_eq_contentAfter honly hwrites (fun _ => isOutput_of_mem_finishedDrafts) hplace

def groupPath (settings : Settings) : Path :=
  settings.dest.child (settings.groupClass ++ ".ts")

/-- What a run leaves that fails at an entry before anything is written for that one: inside the
directory of generated files there is what was there before, overwritten by the base class and by
the files of the resources in front, in their order. The listing, the entries in front and this
one were asked for, and no later one. -/
structure LeavesPrefix (settings : Settings) (cache : Path) (client : Web.Client)
    (listing : Listing) (front : List ListingEntry) (entry : ListingEntry)
    (resources : List Resource) (world after : World) : Prop where
  content_eq : ∀ place, Inside world.files settings.dest place →
    content? after.files place =
      contentAfter world.files (finishedDrafts settings resources) place
  asks : Asks client
    (settings.url :: (front ++ [entry]).map (Fetch.entryUrl settings.url listing)) world after
  group_eq : settings.groupClass ≠ "" →
    finishedDrafts settings resources =
      baseDraft settings :: resources.flatMap (splitDrafts settings) ∧
    content? after.files (world.files.placeOf (groupPath settings)) =
      contentAfter world.files (finishedDrafts settings resources)
        (world.files.placeOf (groupPath settings))

/-- Without a class of their own, resources give the files of their interfaces alone. -/
theorem finishedDrafts_of_group (h : settings.groupClass ≠ "") :
    finishedDrafts settings resources =
      baseDraft settings :: resources.flatMap (splitDrafts settings) := by
  have hown : resourceDrafts settings = splitDrafts settings := by
    funext resource
    rw [resourceDrafts, ownDrafts, if_neg h, List.nil_append]
  rw [finishedDrafts, hown]

/-- A run fails at the first entry that cannot be fetched or whose class fails a strict check, and
leaves exactly what the entries before it gave. -/
theorem failing_entry_leaves_finished_prefix (hapart : Apart world.files settings.dest cache)
    (hreached : Reached settings cache client world listing front (entry :: back) resources
      reached)
    (hrefused : EntryRefused settings cache client listing entry reached failure after) :
    Ends (runWith settings cache client) world (.error failure) after ∧
      LeavesPrefix settings cache client listing front entry resources world after := by
  refine ⟨ends_runWith_error_iff.mpr (.entry hreached hrefused.entryFails), ?_, ?_, ?_⟩
  · intro place hplace
    exact content?_of_reached hreached hrefused.keepsOnly (hapart.not_mem_keptPlaces hplace)
  · have hasks := hreached.asks.append hrefused.asks
    rwa [List.cons_append, ← List.map_singleton (f := Fetch.entryUrl settings.url listing),
      ← List.map_append] at hasks
  · intro hgroup
    refine ⟨finishedDrafts_of_group hgroup, ?_⟩
    have houtput := FilePlaces.isOutput_child settings.dest settings.groupClass
    exact content?_of_reached hreached hrefused.keepsOnly
      (not_mem_keptPlaces_of_isOutput world.files cache houtput)

/-- A document that cannot be read and is not the listing belongs to an entry. -/
theorem exists_entryRefused_of_document {url : String} {fault : DocumentFault}
    (h : Ends (runWith settings cache client) world (.error (.document url fault)) after)
    (hurl : url ≠ settings.url) : ∃ listing front entry back resources reached,
      Reached settings cache client world listing front (entry :: back) resources reached ∧
        EntryRefused settings cache client listing entry reached (.document url fault) after := by
  cases ends_runWith_error_iff.mp h with
  | prepare hfails =>
    obtain ⟨_, heq, -⟩ := failsOnly_prepare settings hfails
    cases heq
  | listing _ hfails => exact absurd (failsOnly_listing cache client _ hfails).url_eq hurl
  | entry hreached hentry =>
    exact ⟨_, _, _, _, _, _, hreached, entryRefused_of_entryFails hentry (by simp)⟩
  | group _ hfails =>
    obtain ⟨-, heq | ⟨merged, -, ⟨⟨-, -, heq⟩, -⟩ | ⟨_, heq, -⟩⟩⟩ := ends_writeGroup_error hfails
    · cases heq
    · cases heq
    · cases heq

/-- A listing of two resources, of which the second is no document. -/
def brokenWorld : World where
  files := ⟨[], ⟨[(["c"], .directory),
    (["c", "a"], .file "\x7b\"apis\":[\x7b\"path\":\"b\"\x7d,\x7b\"path\":\"c\"\x7d]\x7d".toUTF8),
    (["c", "ab"], .file "\x7b\x7d".toUTF8), (["c", "ac"], .file "[".toUTF8)], by decide⟩⟩
  server := fun _ _ => .failed .connectError ""

def brokenSettings : Settings where
  url := "a"
  dest := ⟨.here, ["d"]⟩
  cacheDir := ⟨.here, ["c"]⟩

def brokenUrl? : Except Failure (List Path) → Option String
  | .error (.document url _) => some url
  | _ => none

set_option maxRecDepth 10000 in
theorem ends_run_broken : ∃ fault after,
    Ends (runWith brokenSettings brokenSettings.cacheDir ⟨true⟩) brokenWorld
      (.error (.document "ac" fault)) after ∧
    after.files.node? ["d", "B.ts"] ≠ none ∧ after.files.node? ["d", "C.ts"] = none := by
  have hending : (fun ending : Except Failure (List Path) × World =>
      (brokenUrl? ending.1, (ending.2.files.node? ["d", "B.ts"]).isSome,
        ending.2.files.node? ["d", "C.ts"]))
      ((runWith brokenSettings brokenSettings.cacheDir ⟨true⟩).run.run brokenWorld) =
        (some "ac", true, none) := by
    rw [runWith, prepare, writeBase_eq]
    generalize baseText = text
    cbv
  obtain ⟨hurl, hnodes⟩ := Prod.mk.inj hending
  obtain ⟨hfirst, hsecond⟩ := Prod.mk.inj hnodes
  cases houtcome :
      ((runWith brokenSettings brokenSettings.cacheDir ⟨true⟩).run.run brokenWorld).1 with
  | ok paths =>
    rw [houtcome] at hurl
    cases hurl
  | error failure =>
    rw [houtcome] at hurl
    cases failure with
    | document url fault =>
      cases hurl
      exact ⟨fault, _, Prod.ext houtcome rfl, Option.isSome_iff_ne_none.mp hfirst, hsecond⟩
    | _ => cases hurl

theorem broken_run_leaves_finished_prefix :
    ∃ fault after listing front entry back resources reached,
    Apart brokenWorld.files brokenSettings.dest brokenSettings.cacheDir ∧
    Reached brokenSettings brokenSettings.cacheDir ⟨true⟩ brokenWorld listing front
      (entry :: back) resources reached ∧
    EntryRefused brokenSettings brokenSettings.cacheDir ⟨true⟩ listing entry reached
      (.document "ac" fault) after ∧
    Ends (runWith brokenSettings brokenSettings.cacheDir ⟨true⟩) brokenWorld
      (.error (.document "ac" fault)) after ∧
    LeavesPrefix brokenSettings brokenSettings.cacheDir ⟨true⟩ listing front entry resources
      brokenWorld after ∧
    after.files.node? ["d", "B.ts"] ≠ none ∧ after.files.node? ["d", "C.ts"] = none := by
  obtain ⟨fault, after, hends, hfirst, hsecond⟩ := ends_run_broken
  obtain ⟨listing, front, entry, back, resources, reached, hreached, hrefused⟩ :=
    exists_entryRefused_of_document hends (by decide)
  have hapart : Apart brokenWorld.files brokenSettings.dest brokenSettings.cacheDir := by
    rintro place ⟨rest, rfl⟩ ⟨other, heq⟩
    have hdest : brokenWorld.files.placeOf brokenSettings.dest = ["d"] := by decide
    have hcache : brokenWorld.files.placeOf brokenSettings.cacheDir = ["c"] := by decide
    rw [hdest, hcache] at heq
    simp at heq
  obtain ⟨hfails, hleaves⟩ := failing_entry_leaves_finished_prefix hapart hreached hrefused
  exact ⟨fault, after, listing, front, entry, back, resources, reached, hapart, hreached,
    hrefused, hfails, hleaves, hfirst, hsecond⟩

/-- A run comes to the check of a class, behind some resources that it has finished. -/
inductive ComesTo (settings : Settings) (cache : Path) (client : Web.Client) (world : World) :
    List Resource → String → Resource → Prop
  | own {listing : Listing} {front back : List ListingEntry} {entry : ListingEntry}
    {finished : List Resource} {resource : Resource} {reached fetched : World} :
    settings.groupClass = "" →
      Reached settings cache client world listing front (entry :: back) finished reached →
        Ends (Fetch.resource cache client settings.url listing entry) reached (.ok resource)
          fetched →
          ComesTo settings cache client world finished (Naming.className resource) resource
  | group {listing : Listing} {finished : List Resource} {merged : Resource} {reached : World} :
    settings.groupClass ≠ "" →
      Reached settings cache client world listing listing.apis [] finished reached →
        Resource.merge? finished = some merged →
          ComesTo settings cache client world finished settings.groupClass merged

/-- What a run leaves that fails at the check of a class, behind some resources that it has
finished: their files and the base class. Unless one of those leads to the same place, neither the
file of the class nor those of its interfaces were touched. -/
structure LeavesUnchecked (settings : Settings) (cache : Path) (finished : List Resource)
    (name : String) (failing : Resource) (world after : World) : Prop where
  content_eq : ∀ place ∉ keptPlaces cache world.files,
    content? after.files place = contentAfter world.files (finishedDrafts settings finished) place
  untouched : ∀ draft ∈ classDraft settings name failing :: interfaceDrafts settings failing,
    (∀ earlier ∈ finishedDrafts settings finished,
      world.files.placeOf earlier.1 ≠ world.files.placeOf draft.1) →
    content? after.files (world.files.placeOf draft.1) =
      content? world.files (world.files.placeOf draft.1)
  base_only : settings.groupClass ≠ "" → settings.splitInterfaces = false →
    finishedDrafts settings finished = [baseDraft settings]

theorem leavesUnchecked_of_reached {finished : List Resource} {name : String} {failing : Resource}
    (h : Reached settings cache client world listing front back finished reached)
    (hkeeps : KeepsOnly cache reached after) :
    LeavesUnchecked settings cache finished name failing world after := by
  refine ⟨fun place hplace => content?_of_reached h hkeeps hplace, ?_, ?_⟩
  · intro draft hmem hearlier
    have houtput : FilePlaces.IsOutput draft.1 := by
      rcases List.mem_cons.mp hmem with rfl | hinterface
      · exact FilePlaces.isOutput_classDraft settings name failing
      · exact FilePlaces.isOutput_of_mem_interfaceDrafts hinterface
    rw [content?_of_reached h hkeeps (not_mem_keptPlaces_of_isOutput world.files cache houtput)]
    exact contentAfter_eq_content? hearlier
  · intro hgroup hsplit
    have hnone : splitDrafts settings = fun _ => [] := by
      funext resource
      rw [splitDrafts, hsplit, if_neg Bool.false_ne_true]
    rw [finishedDrafts_of_group hgroup, hnone]
    simp

/-- A run fails for references that dangle only at the strict check of a class to which it came,
and then it leaves what the resources gave that it had finished before. -/
theorem dangling_failure_leaves_finished_files {name : String} {missing : List String}
    (h : Ends (runWith settings cache client) world (.error (.dangling name missing)) after) :
    ∃ finished failing, ComesTo settings cache client world finished name failing ∧
      settings.strictRefs = true ∧ failing.danglingReferences = missing ∧ missing ≠ [] ∧
        LeavesUnchecked settings cache finished name failing world after := by
  cases ends_runWith_error_iff.mp h with
  | prepare hfails =>
    obtain ⟨_, heq, -⟩ := failsOnly_prepare settings hfails
    cases heq
  | listing _ hfails => cases failsOnly_listing cache client _ hfails
  | entry hreached hentry =>
    cases entryRefused_of_entryFails hentry (by simp) with
    | fetch hfails => cases failsOnly_resource cache client _ _ _ hfails
    | check hfetch hgroup hcheck =>
      obtain ⟨hstrict, hmissing, heq⟩ := hcheck
      cases heq
      exact ⟨_, _, .own hgroup hreached hfetch, hstrict, rfl, hmissing,
        leavesUnchecked_of_reached hreached (keepsOnly_of_resource hfetch)⟩
  | group hreached hfails =>
    obtain ⟨hgroup, heq | ⟨merged, hmerge, hclass⟩⟩ := ends_writeGroup_error hfails
    · cases heq
    rcases hclass with ⟨⟨hstrict, hmissing, heq⟩, rfl⟩ | ⟨_, heq, -⟩
    · cases heq
      exact ⟨_, merged, .group hgroup hreached hmerge, hstrict, rfl, hmissing,
        leavesUnchecked_of_reached hreached ((lasting_keepsOnly cache).refl _)⟩
    · cases heq

/-- One class for all resources, in front of which the interfaces have files of their own. -/
def groupedSettings : Settings :=
  { Warnings.ownerSettings with splitInterfaces := true, groupClass := "G", strictRefs := true }

theorem reached_of_readAll {finished : List Resource}
    (h : Ends (SplitFiles.readAll settings cache client) world (.ok finished) after) :
    ∃ listing, Reached settings cache client world listing listing.apis [] finished after := by
  obtain ⟨base, prepared, hprepare, h⟩ := ends_bind_ok_iff.mp h
  obtain ⟨listing, listed, hlisting, h⟩ := ends_bind_ok_iff.mp h
  obtain ⟨⟨written, found⟩, wrote, hresources, h⟩ := ends_bind_ok_iff.mp h
  obtain ⟨heq, rfl⟩ := ends_pure_iff.mp h
  cases heq
  exact ⟨listing, (List.append_nil _).symm, listed, written,
    ⟨base, prepared, hprepare, hlisting⟩, hresources⟩

set_option maxRecDepth 10000 in
theorem ends_readAll_grouped : ∃ resource after,
    Ends (SplitFiles.readAll groupedSettings groupedSettings.cacheDir ⟨true⟩) Warnings.ownerWorld
      (.ok [resource]) after ∧
    resource.danglingReferences = ["Owner"] ∧
    resource.models.values.map Model.interfaceName = ["IPet"] ∧
    (after.files.node? ["interfaces", "IPet.ts"]).isSome = true := by
  have hending : (fun ending : Except Failure (List Resource) × World =>
      (ending.1.map (·.map fun resource =>
        (resource.danglingReferences, resource.models.values.map Model.interfaceName)),
        (ending.2.files.node? ["interfaces", "IPet.ts"]).isSome))
      ((SplitFiles.readAll groupedSettings groupedSettings.cacheDir ⟨true⟩).run.run
        Warnings.ownerWorld) = (.ok [(["Owner"], ["IPet"])], true) := by
    rw [SplitFiles.readAll, prepare, writeBase_eq]
    generalize baseText = text
    cbv
  obtain ⟨hresources, hnode⟩ := Prod.mk.inj hending
  cases houtcome : ((SplitFiles.readAll groupedSettings groupedSettings.cacheDir ⟨true⟩).run.run
      Warnings.ownerWorld).1 with
  | error failure =>
    rw [houtcome] at hresources
    cases hresources
  | ok resources =>
    rw [houtcome] at hresources
    obtain ⟨resource, rest, rfl, hparts, hrest⟩ :=
      List.map_eq_cons_iff.mp (Except.ok.inj hresources)
    cases List.map_eq_nil_iff.mp hrest
    obtain ⟨hdangling, hmodels⟩ := Prod.mk.inj hparts
    exact ⟨resource, _, Prod.ext houtcome rfl, hdangling, hmodels, hnode⟩

theorem ends_run_grouped : ∃ failing after,
    Ends (runWith groupedSettings groupedSettings.cacheDir ⟨true⟩) Warnings.ownerWorld
      (.error (.dangling "G" ["Owner"])) after ∧
    ComesTo groupedSettings groupedSettings.cacheDir ⟨true⟩ Warnings.ownerWorld [failing] "G"
      failing ∧
    failing.models.values.map Model.interfaceName = ["IPet"] ∧
    (after.files.node? ["interfaces", "IPet.ts"]).isSome = true := by
  obtain ⟨failing, after, hends, hdangling, hmodels, hnode⟩ := ends_readAll_grouped
  obtain ⟨listing, hreached⟩ := reached_of_readAll hends
  have hcheck : CheckFails groupedSettings groupedSettings.groupClass failing
      (.dangling "G" ["Owner"]) := by
    rw [CheckFails, hdangling]
    exact ⟨rfl, List.cons_ne_nil _ _, rfl⟩
  have hgroup : Ends (writeGroup groupedSettings [failing]) after
      (.error (.dangling "G" ["Owner"])) after := by
    rw [writeGroup, if_neg (by decide)]
    exact ends_writeClass_of_checkFails hcheck after
  exact ⟨failing, after, ends_runWith_error_iff.mpr (.group hreached hgroup),
    .group (by decide) hreached rfl, hmodels, hnode⟩

theorem grouped_failure_leaves_finished_files : ∃ after finished failing,
    Ends (runWith groupedSettings groupedSettings.cacheDir ⟨true⟩) Warnings.ownerWorld
      (.error (.dangling "G" ["Owner"])) after ∧
    ComesTo groupedSettings groupedSettings.cacheDir ⟨true⟩ Warnings.ownerWorld finished "G"
      failing ∧
    failing.danglingReferences = ["Owner"] ∧
    LeavesUnchecked groupedSettings groupedSettings.cacheDir finished "G" failing
      Warnings.ownerWorld after := by
  obtain ⟨_, after, hends, -⟩ := ends_run_grouped
  obtain ⟨finished, failing, hcomes, -, hdangling, -, hleaves⟩ :=
    dangling_failure_leaves_finished_files hends
  exact ⟨after, finished, failing, hends, hcomes, hdangling, hleaves⟩

/-- The file of an interface is there although its class fails the check. -/
theorem grouped_failure_has_written_interface : ∃ after finished failing,
    groupedSettings.strictRefs = true ∧
    Ends (runWith groupedSettings groupedSettings.cacheDir ⟨true⟩) Warnings.ownerWorld
      (.error (.dangling "G" ["Owner"])) after ∧
    ComesTo groupedSettings groupedSettings.cacheDir ⟨true⟩ Warnings.ownerWorld finished "G"
      failing ∧
    ∃ model ∈ failing.models.values,
      (interfaceDraft groupedSettings model).1 = ⟨.here, ["interfaces", "IPet.ts"]⟩ ∧
      Warnings.ownerWorld.files.node? ["interfaces", "IPet.ts"] = none ∧
      after.files.node? ["interfaces", "IPet.ts"] ≠ none := by
  obtain ⟨failing, after, hends, hcomes, hmodels, hnode⟩ := ends_run_grouped
  obtain ⟨model, _, hvalues, hname, -⟩ := List.map_eq_cons_iff.mp hmodels
  refine ⟨after, [failing], failing, rfl, hends, hcomes, model, ?_, ?_, by decide,
    Option.isSome_iff_ne_none.mp hnode⟩
  · rw [hvalues]
    exact List.mem_cons_self ..
  · rw [interfaceDraft_fst, hname]
    decide

end ApiClientGen.FinishedPrefix
