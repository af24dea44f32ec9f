import ApiClientGen.Proofs.FileContents
import ApiClientGen.Proofs.RequestTrail

/-!
Where a run fails: before it has read the listing, at one entry of the listing behind those that
it has finished, or behind all entries at the class that they share. What it did with the finished
entries is there: their files are written, and only their documents were asked for.
-/
namespace ApiClientGen.FailingRuns

open FileContents Generate KeptDocuments OutputFiles RequestTrail Run RunEffect

variable {settings : Settings} {cache : Path} {client : Web.Client} {listing : Listing}
  {front back entries : List ListingEntry} {entry : ListingEntry} {resources : List Resource}
  {world reached after : World} {failure : Failure} {place : FilePlace}

/-- A run has made its directories and the base class and has read the listing. -/
def Listed (settings : Settings) (cache : Path) (client : Web.Client) (world : World)
    (listing : Listing) (listed : World) : Prop :=
  ∃ base prepared, Ends (prepare settings) world (.ok base) prepared ∧
    Ends (Fetch.listing cache client settings.url) prepared (.ok listing) listed

/-- A run has finished the entries in front, of which each gave a resource; those in the back are
left. -/
structure Reached (settings : Settings) (cache : Path) (client : Web.Client) (world : World)
    (listing : Listing) (front back : List ListingEntry) (resources : List Resource)
    (reached : World) : Prop where
  apis_eq : listing.apis = front ++ back
  finished : ∃ listed written, Listed settings cache client world listing listed ∧
    Ends (writeResources settings cache client listing front) listed (.ok (written, resources))
      reached

/-- Handling an entry fails: its resource cannot be fetched, or its files cannot be written. -/
inductive EntryFails (settings : Settings) (cache : Path) (client : Web.Client)
    (listing : Listing) (entry : ListingEntry) (before : World) (failure : Failure)
    (after : World) : Prop
  | fetch :
    Ends (Fetch.resource cache client settings.url listing entry) before (.error failure) after →
      EntryFails settings cache client listing entry before failure after
  | write {resource : Resource} {fetched : World} :
    Ends (Fetch.resource cache client settings.url listing entry) before (.ok resource) fetched →
      Ends (writeResource settings resource) fetched (.error failure) after →
        EntryFails settings cache client listing entry before failure after

inductive Fails (settings : Settings) (cache : Path) (client : Web.Client) (world : World)
    (failure : Failure) (after : World) : Prop
  | prepare :
    Ends (prepare settings) world (.error failure) after →
      Fails settings cache client world failure after
  | listing {base : Path} {prepared : World} :
    Ends (Generate.prepare settings) world (.ok base) prepared →
      Ends (Fetch.listing cache client settings.url) prepared (.error failure) after →
        Fails settings cache client world failure after
  | entry {listing : Listing} {front back : List ListingEntry} {entry : ListingEntry}
    {resources : List Resource} {reached : World} :
    Reached settings cache client world listing front (entry :: back) resources reached →
      EntryFails settings cache client listing entry reached failure after →
        Fails settings cache client world failure after
  | group {listing : Listing} {resources : List Resource} {reached : World} :
    Reached settings cache client world listing listing.apis [] resources reached →
      Ends (writeGroup settings resources) reached (.error failure) after →
        Fails settings cache client world failure after

section Loop

/-- The first entry that fails ends the loop, behind the entries that it finished. -/
theorem exists_of_writeResources_error
    (h : Ends (writeResources settings cache client listing entries) world
      (.error failure) after) :
    ∃ front entry back written resources reached, entries = front ++ entry :: back ∧
      Ends (writeResources settings cache client listing front) world (.ok (written, resources))
        reached ∧
      EntryFails settings cache client listing entry reached failure after := by
  induction entries generalizing world with
  | nil => cases (ends_pure_iff.mp h).1
  | cons entry rest ih =>
    have hnone : Ends (writeResources settings cache client listing []) world (.ok ([], []))
        world := ends_pure_iff.mpr ⟨rfl, rfl⟩
    rw [writeResources, ends_bind_iff] at h
    rcases h with ⟨_, hfails, heq⟩ | ⟨resource, fetched, hfetch, h⟩
    · cases heq
      exact ⟨[], entry, rest, [], [], world, rfl, hnone, .fetch hfails⟩
    rw [ends_bind_iff] at h
    rcases h with ⟨_, hfails, heq⟩ | ⟨written, wrote, hwrite, h⟩
    · cases heq
      exact ⟨[], entry, rest, [], [], world, rfl, hnone, .write hfetch hfails⟩
    rw [ends_bind_iff] at h
    rcases h with ⟨_, hfails, heq⟩ | ⟨_, _, -, h⟩
    · cases heq
      obtain ⟨front, failing, back, others, resources, reached, rfl, hfront, hentry⟩ := ih hfails
      exact ⟨entry :: front, failing, back, written ++ others, resource :: resources,
        reached, rfl,
        ends_writeResources_cons_iff.mpr ⟨_, _, _, _, _, hfetch, hwrite, hfront, rfl⟩, hentry⟩
    · cases (ends_pure_iff.mp h).1

theorem ends_writeResources_error {found : List Path × List Resource}
    (hfront : Ends (writeResources settings cache client listing front) world (.ok found) reached)
    (hentry : EntryFails settings cache client listing entry reached failure after) :
    Ends (writeResources settings cache client listing (front ++ entry :: back)) world
      (.error failure) after := by
  induction front generalizing world found with
  | nil =>
    obtain ⟨-, rfl⟩ := ends_pure_iff.mp hfront
    cases hentry with
    | fetch hfails => exact hfails.bind_error
    | write hfetch hfails => exact hfetch.bind hfails.bind_error
  | cons first rest ih =>
    obtain ⟨resource, fetched, written, wrote, others, hfetch, hwrite, hrest, -⟩ :=
      ends_writeResources_cons_iff.mp hfront
    exact hfetch.bind (hwrite.bind (ih hrest).bind_error)

end Loop

/-- A run fails in one of these ways and in no other. -/
theorem ends_runWith_error_iff :
    Ends (runWith settings cache client) world (.error failure) after ↔
      Fails settings cache client world failure after := by
  constructor
  · intro h
    rw [runWith, ends_bind_iff] at h
    rcases h with ⟨_, hfails, heq⟩ | ⟨base, prepared, hprepare, h⟩
    · cases heq
      exact .prepare hfails
    rw [ends_bind_iff] at h
    rcases h with ⟨_, hfails, heq⟩ | ⟨listing, listed, hlisting, h⟩
    · cases heq
      exact .listing hprepare hfails
    have hlisted : Listed settings cache client world listing listed :=
      ⟨base, prepared, hprepare, hlisting⟩
    rw [ends_bind_iff] at h
    rcases h with ⟨_, hfails, heq⟩ | ⟨⟨written, resources⟩, wrote, hresources, h⟩
    · cases heq
      obtain ⟨front, entry, back, written, resources, reached, happend, hfront, hentry⟩ :=
        exists_of_writeResources_error hfails
      exact .entry ⟨happend, listed, written, hlisted, hfront⟩ hentry
    rw [ends_bind_iff] at h
    rcases h with ⟨_, hfails, heq⟩ | ⟨grouped, last, -, h⟩
    · cases heq
      exact .group ⟨(List.append_nil _).symm, listed, written, hlisted, hresources⟩ hfails
    -- from here on a line is printed, which does not fail
    rcases ends_bind_iff.mp h with ⟨_, hfails, -⟩ | ⟨_, _, -, h⟩
    · cases (ends_printLine_iff.mp hfails).1
    · cases (ends_pure_iff.mp h).1
  · intro h
    cases h with
    | prepare hfails => exact hfails.bind_error
    | listing hprepare hfails => exact hprepare.bind hfails.bind_error
    | @entry listing _ _ _ _ _ hreached hentry =>
      obtain ⟨happend, listed, written, ⟨base, prepared, hprepare, hlisting⟩, hfront⟩ := hreached
      have hloop : Ends (writeResources settings cache client listing listing.apis) listed
          (.error failure) after := by
        rw [happend]
        exact ends_writeResources_error hfront hentry
      exact hprepare.bind (hlisting.bind hloop.bind_error)
    | group hreached hfails =>
      obtain ⟨-, listed, written, ⟨base, prepared, hprepare, hlisting⟩, hfront⟩ := hreached
      exact hprepare.bind (hlisting.bind (hfront.bind hfails.bind_error))

/-- The files that a run has written when it has finished some resources. -/
def finishedDrafts (settings : Settings) (resources : List Resource) : List Draft :=
  baseDraft settings :: resources.flatMap (resourceDrafts settings)

theorem isOutput_of_mem_finishedDrafts {draft : Draft}
    (h : draft ∈ finishedDrafts settings resources) : FilePlaces.IsOutput draft.1 := by
  rcases List.mem_cons.mp h with rfl | hmem
  · exact FilePlaces.isOutput_base settings.dest
  · obtain ⟨resource, -, hdraft⟩ := List.mem_flatMap.mp hmem
    exact isOutput_of_mem_resourceDrafts hdraft

namespace Reached

variable (h : Reached settings cache client world listing front back resources reached)
include h

theorem writes : Writes (finishedDrafts settings resources) world.files reached.files := by
  obtain ⟨-, listed, written, ⟨base, prepared, hprepare, hlisting⟩, hfront⟩ := h
  have hbase := (ends_prepare_ok hprepare).2
  have hresources := (ends_writeResources_ok hfront).2
  exact hbase.append (hresources.of_grows (grows_of_ends_listing hlisting))

theorem writesOnly : WritesOnly cache world reached := by
  have hR := lasting_writesOnly cache
  obtain ⟨-, listed, written, ⟨base, prepared, hprepare, hlisting⟩, hfront⟩ := h
  have hlisted : KeepsOnly cache prepared listed :=
    RunSteps.leaves_listing (lasting_keepsOnly cache).prints leaves_fetch settings.url hlisting
  exact hR.trans (FileContents.leaves_start settings hprepare)
    (hR.trans hlisted.writesOnly (leaves_entries settings listing front hfront))

/-- The listing and the finished entries are asked for, and nothing else. -/
theorem asks : Asks client (settings.url :: front.map (Fetch.entryUrl settings.url listing))
    world reached := by
  obtain ⟨-, listed, written, ⟨base, prepared, hprepare, hlisting⟩, hfront⟩ := h
  have hprepared : Asks client [] world prepared :=
    (RequestTrail.leaves_start settings hprepare).asks_nil
  have hlisted := RequestTrail.leaves_listing cache client settings.url hlisting
  exact hprepared.append (hlisted.append (asks_of_writeResources hfront))

end Reached

end ApiClientGen.FailingRuns
