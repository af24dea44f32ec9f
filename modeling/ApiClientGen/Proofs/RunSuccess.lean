import ApiClientGen.Proofs.OutputFiles

/-!
Where a run succeeds. A computation leads from the worlds with one property to those with another;
one step after the other leads from the first property to the last. What a run prints does not
matter, so that each part of a run is led through by what its fetching and its writing need.
-/
namespace ApiClientGen.RunSuccess

open Generate KeptDocuments OutputFiles Run

variable {α β : Type} {before between after : World → Prop} {settings : Settings} {cache : Path}
  {client : Web.Client} {value : Json} {resource : Resource}

/-- From every world with one property a computation ends with a value, in a world with
another. -/
def Leads (before : World → Prop) (action : Run α) (value : α) (after : World → Prop) : Prop :=
  ∀ world, before world → ∃ last, Ends action world (.ok value) last ∧ after last

section Steps

/-- What the first computation leads to is where the second one starts. -/
theorem Leads.bind {action : Run α} {next : α → Run β} {value : α} {result : β}
    (h : Leads before action value between) (hnext : Leads between (next value) result after) :
    Leads before (action >>= next) result after := by
  intro world hworld
  obtain ⟨middle, haction, hmiddle⟩ := h world hworld
  obtain ⟨last, hrest, hlast⟩ := hnext middle hmiddle
  exact ⟨last, haction.bind hrest, hlast⟩

theorem leads_pure (value : α) : Leads before (pure value) value before :=
  fun world hworld => ⟨world, ends_pure_iff.mpr ⟨rfl, rfl⟩, hworld⟩

theorem leads_ofExcept {ε : Type} {failure : ε → Failure} {result : Except ε α} {value : α}
    (h : result = .ok value) : Leads before (ofExcept failure result) value before :=
  fun world hworld => ⟨world, ends_ofExcept_ok_iff.mpr ⟨h, rfl⟩, hworld⟩

/-- A property that does not see what is printed. -/
def Quiet (before : World → Prop) : Prop :=
  ∀ world stdout stderr, before world → before { world with stdout := stdout, stderr := stderr }

/-- What is printed does not bear on a quiet property. -/
theorem Quiet.leads_printLine (h : Quiet before) (line : String) :
    Leads before (printLine line) () before :=
  fun world hworld => ⟨_, ends_printLine_iff.mpr ⟨rfl, rfl⟩, h world _ world.stderr hworld⟩

theorem Quiet.leads_warn (h : Quiet before) (line : String) :
    Leads before (warn line) () before :=
  fun world hworld => ⟨_, ends_warn_iff.mpr ⟨rfl, rfl⟩, h world world.stdout _ hworld⟩

end Steps

section Fetching

variable {root : String} {listing : Listing} {entry : ListingEntry}

/-- A listing is read once its document is there and has the right shape. -/
theorem leads_listing (hjson : Leads before (Fetch.json cache client root) value after)
    (hgood : Schema.readListing value = .good listing) :
    Leads before (Fetch.listing cache client root) listing after := by
  refine hjson.bind (leads_ofExcept ?_)
  rw [hgood, Fetch.readRecord]

/-- A resource is read once its document is there and has the right shape; what it prints before
does not matter. -/
theorem leads_resource (hquiet : Quiet before)
    (hjson :
      Leads before (Fetch.json cache client (Fetch.entryUrl root listing entry)) value after)
    (hgood : Schema.readResource value = .good resource) :
    Leads before (Fetch.resource cache client root listing entry) (Fetch.withPath entry resource)
      after := by
  refine (hquiet.leads_printLine _).bind
    (hjson.bind (Leads.bind (leads_ofExcept ?_) (leads_pure _)))
  rw [hgood, Fetch.readRecord]

end Fetching

section Writing

/-- Each draft can be written, and that goes on to be so. -/
def CanWriteAll (before : World → Prop) (list : List Draft) : Prop :=
  ∀ draft ∈ list, Leads before (writeText draft.1 draft.2) draft.1 before

/-- Files that can each be written can be written one after the other. -/
theorem leads_writeDrafts {list : List Draft} (h : CanWriteAll before list) :
    Leads before (writeDrafts list) (list.map Prod.fst) before := by
  induction list with
  | nil => exact leads_pure []
  | cons draft rest ih =>
    obtain ⟨hdraft, hrest⟩ := List.forall_mem_cons.mp h
    exact hdraft.bind ((ih hrest).bind (leads_pure _))

theorem leads_writeInterfaces (h : CanWriteAll before (splitDrafts settings resource)) :
    Leads before (writeInterfaces settings resource)
      ((splitDrafts settings resource).map Prod.fst) before := by
  rw [splitDrafts] at h
  rw [writeInterfaces, splitDrafts]
  split
  · rename_i hsplit
    rw [if_pos hsplit] at h
    exact leads_writeDrafts h
  · exact leads_pure []

/-- The start of a run succeeds if its directories can be made and the base class can be
written. -/
theorem leads_prepare (hdest : Leads before (ensureDirectories settings.dest) () before)
    (hinterfaces : settings.splitInterfaces = true →
      Leads before (ensureDirectories (interfacesDir settings)) () before)
    (h : Leads before (writeText (baseDraft settings).1 (baseDraft settings).2)
      (baseDraft settings).1 before) :
    Leads before (prepare settings) (baseDraft settings).1 before := by
  have hbase : Leads before (writeBase settings.dest) (baseDraft settings).1 before := by
    rw [writeBase_eq]
    exact h
  refine hdest.bind ?_
  dsimp only
  split
  · rename_i hsplit
    exact (hinterfaces hsplit).bind hbase
  · exact hbase

variable (hquiet : Quiet before)
include hquiet

/-- Whatever dangles is no obstacle, unless the check is strict. -/
theorem leads_checkReferences (name : String)
    (h : settings.strictRefs = true → resource.danglingReferences = []) :
    Leads before (checkReferences name resource settings.strictRefs) resource.danglingReferences
      before := by
  rw [checkReferences]
  split
  · rename_i hempty
    rw [List.isEmpty_iff.mp hempty]
    exact leads_pure []
  · rename_i hdangling
    split
    · rename_i hstrict
      rw [h hstrict] at hdangling
      exact absurd rfl hdangling
    · exact (hquiet.leads_warn _).bind (leads_pure _)

theorem leads_writeClass {name : String}
    (hpasses : settings.strictRefs = true → resource.danglingReferences = [])
    (h : CanWriteAll before [classDraft settings name resource]) :
    Leads before (writeClass settings name resource)
      ([classDraft settings name resource].map Prod.fst) before :=
  (leads_checkReferences hquiet name hpasses).bind (leads_writeDrafts h)

theorem leads_writeOwnClass
    (hpasses : settings.groupClass = "" →
      settings.strictRefs = true → resource.danglingReferences = [])
    (h : CanWriteAll before (ownDrafts settings resource)) :
    Leads before (writeOwnClass settings resource) ((ownDrafts settings resource).map Prod.fst)
      before := by
  rw [ownDrafts] at h
  rw [writeOwnClass, ownDrafts]
  split
  · rename_i hnone
    rw [if_pos hnone] at h
    exact leads_writeClass hquiet (hpasses hnone) h
  · exact leads_pure []

/-- What a resource gives is written if its references do not dangle in a strict run. -/
theorem leads_writeResource
    (hpasses : settings.groupClass = "" →
      settings.strictRefs = true → resource.danglingReferences = [])
    (h : CanWriteAll before (resourceDrafts settings resource)) :
    Leads before (writeResource settings resource)
      ((resourceDrafts settings resource).map Prod.fst) before := by
  rw [CanWriteAll, resourceDrafts, List.forall_mem_append] at h
  rw [resourceDrafts, List.map_append]
  exact (leads_writeOwnClass hquiet hpasses h.1).bind
    ((leads_writeInterfaces h.2).bind (leads_pure _))

/-- The class of all resources is written if they can be merged and the merged one passes the
check. -/
theorem leads_writeGroup {resources : List Resource}
    (hmerge : settings.groupClass ≠ "" → ∃ merged, Resource.merge? resources = some merged ∧
      (settings.strictRefs = true → merged.danglingReferences = []))
    (h : CanWriteAll before (groupDrafts settings resources)) :
    Leads before (writeGroup settings resources) ((groupDrafts settings resources).map Prod.fst)
      before := by
  rw [groupDrafts] at h
  rw [writeGroup, groupDrafts]
  split
  · exact leads_pure []
  · rename_i hsome
    obtain ⟨merged, hmerged, hpasses⟩ := hmerge hsome
    rw [if_neg hsome, hmerged] at h
    rw [hmerged]
    exact leads_writeClass hquiet hpasses h

end Writing

end ApiClientGen.RunSuccess
