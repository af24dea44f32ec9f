import ApiClientGen.Proofs.OutputFiles

/-!
The steps of a load and of a run. A relation between worlds that goes through from step to step
holds across every load when it holds across fetching a document; it holds across every run when
it also holds across making directories and writing a generated file. How the run ends, and after
how many entries, does not matter.
-/
namespace ApiClientGen.RunSteps

open Generate KeptDocuments OutputFiles Run RunEffect

variable {R : World → World → Prop}

section Load

variable {cache : Path} {client : Web.Client} (hR : Prints R)
  (hjson : ∀ url, Leaves R (Fetch.json cache client url))
include hR hjson

theorem leaves_listing (root : String) : Leaves R (Fetch.listing cache client root) :=
  hR.leaves_bind (hjson root) fun _ => hR.leaves_ofExcept _ _

theorem leaves_resource (root : String) (listing : Listing) (entry : ListingEntry) :
    Leaves R (Fetch.resource cache client root listing entry) := by
  refine hR.leaves_bind (hR.line _) fun _ => ?_
  refine hR.leaves_bind (hjson _) fun value => ?_
  exact hR.leaves_bind (hR.leaves_ofExcept _ _) fun found => hR.leaves_pure _

theorem leaves_resources (root : String) (listing : Listing) (entries : List ListingEntry) :
    Leaves R (Fetch.resources cache client root listing entries) := by
  induction entries with
  | nil => exact hR.leaves_pure _
  | cons entry rest ih =>
    refine hR.leaves_bind (leaves_resource hR hjson root listing entry) fun first => ?_
    exact hR.leaves_bind ih fun others => hR.leaves_pure _

theorem leaves_load (root : String) : Leaves R (Fetch.load cache client root) :=
  hR.leaves_bind (leaves_listing hR hjson root) fun listing =>
    leaves_resources hR hjson root listing listing.apis

end Load

section Writing

variable {settings : Settings} (hR : Carried R)
include hR

theorem leaves_writeDrafts {list : List Draft}
    (htext : ∀ draft ∈ list, Leaves R (writeText draft.1 draft.2)) :
    Leaves R (writeDrafts list) := by
  induction list with
  | nil => exact hR.leaves_pure _
  | cons draft rest ih =>
    obtain ⟨hdraft, hrest⟩ := List.forall_mem_cons.mp htext
    refine hR.leaves_bind hdraft fun first => ?_
    exact hR.leaves_bind (ih hrest) fun others => hR.leaves_pure _

theorem leaves_writeInterfaces {resource : Resource}
    (htext : ∀ draft ∈ splitDrafts settings resource, Leaves R (writeText draft.1 draft.2)) :
    Leaves R (writeInterfaces settings resource) := by
  rw [splitDrafts] at htext
  rw [writeInterfaces]
  split
  · rename_i hsplit
    rw [if_pos hsplit] at htext
    exact leaves_writeDrafts hR htext
  · exact hR.leaves_pure _

theorem leaves_prepare (hmake : ∀ path, Leaves R (ensureDirectories path))
    (htext : Leaves R (writeText (baseDraft settings).1 (baseDraft settings).2)) :
    Leaves R (prepare settings) := by
  have hbase : Leaves R (writeBase settings.dest) := by
    rw [writeBase_eq]
    exact htext
  unfold prepare
  refine hR.leaves_bind (hmake settings.dest) fun _ => ?_
  dsimp only
  split
  · exact hR.leaves_bind (hmake _) fun _ => hbase
  · exact hbase

end Writing

section Service

variable {settings : Settings} (hR : Reports R)
include hR

theorem leaves_checkReferences (name : String) (resource : Resource) (strict : Bool) :
    Leaves R (checkReferences name resource strict) := by
  unfold checkReferences
  dsimp only
  split
  · exact hR.leaves_pure _
  · split
    · exact hR.leaves_throw _
    · exact hR.leaves_bind (hR.warning _ _) fun _ => hR.leaves_pure _

theorem leaves_writeClass {name : String} {resource : Resource}
    (htext : ∀ draft ∈ [classDraft settings name resource],
      Leaves R (writeText draft.1 draft.2)) :
    Leaves R (writeClass settings name resource) :=
  hR.leaves_bind (leaves_checkReferences hR name resource settings.strictRefs) fun _ =>
    leaves_writeDrafts hR.toCarried htext

theorem leaves_writeOwnClass {resource : Resource}
    (htext : ∀ draft ∈ ownDrafts settings resource, Leaves R (writeText draft.1 draft.2)) :
    Leaves R (writeOwnClass settings resource) := by
  rw [ownDrafts] at htext
  rw [writeOwnClass]
  split
  · rename_i hnone
    rw [if_pos hnone] at htext
    exact leaves_writeClass hR htext
  · exact hR.leaves_pure _

/-- Writing what a resource gives takes no other steps than writing its drafts. -/
theorem leaves_writeResource {resource : Resource}
    (htext : ∀ draft ∈ resourceDrafts settings resource, Leaves R (writeText draft.1 draft.2)) :
    Leaves R (writeResource settings resource) := by
  rw [resourceDrafts, List.forall_mem_append] at htext
  refine hR.leaves_bind (leaves_writeOwnClass hR htext.1) fun ofClass => ?_
  refine hR.leaves_bind (leaves_writeInterfaces hR.toCarried htext.2) fun ofInterfaces => ?_
  exact hR.leaves_pure _

theorem leaves_writeGroup {resources : List Resource}
    (htext : ∀ draft ∈ groupDrafts settings resources, Leaves R (writeText draft.1 draft.2)) :
    Leaves R (writeGroup settings resources) := by
  rw [groupDrafts] at htext
  unfold writeGroup
  split
  · exact hR.leaves_pure _
  · rename_i hsome
    rw [if_neg hsome] at htext
    cases hmerge : Resource.merge? resources with
    | none => exact hR.leaves_throw _
    | some merged =>
      rw [hmerge] at htext
      exact leaves_writeClass hR htext

theorem leaves_writeResources {cache : Path} {client : Web.Client}
    (hjson : ∀ url, Leaves R (Fetch.json cache client url))
    (htext : ∀ resource, ∀ draft ∈ resourceDrafts settings resource,
      Leaves R (writeText draft.1 draft.2))
    (listing : Listing) (entries : List ListingEntry) :
    Leaves R (writeResources settings cache client listing entries) := by
  induction entries with
  | nil => exact hR.leaves_pure _
  | cons entry rest ih =>
    have hfetch := leaves_resource hR.toPrints hjson settings.url listing entry
    refine hR.leaves_bind hfetch fun resource => ?_
    refine hR.leaves_bind (leaves_writeResource hR (htext resource)) fun written => ?_
    exact hR.leaves_bind ih fun others => hR.leaves_pure _

/-- A relation holds across every run when it does across each kind of step that a run takes. -/
theorem leaves_runWith {cache : Path} {client : Web.Client}
    (hmake : ∀ path, Leaves R (ensureDirectories path))
    (hjson : ∀ url, Leaves R (Fetch.json cache client url))
    (htext : ∀ resources, ∀ draft ∈ drafts settings resources,
      Leaves R (writeText draft.1 draft.2)) :
    Leaves R (runWith settings cache client) := by
  have hbase : Leaves R (writeText (baseDraft settings).1 (baseDraft settings).2) :=
    htext [] _ (List.mem_cons_self ..)
  have hown : ∀ resource, ∀ draft ∈ resourceDrafts settings resource,
      Leaves R (writeText draft.1 draft.2) := by
    intro resource draft hmem
    exact htext [resource] draft (by simp [drafts, hmem])
  have hgroup : ∀ resources, ∀ draft ∈ groupDrafts settings resources,
      Leaves R (writeText draft.1 draft.2) := by
    intro resources draft hmem
    exact htext resources draft (by simp [drafts, hmem])
  refine hR.leaves_bind (leaves_prepare hR.toCarried hmake hbase) fun base => ?_
  refine hR.leaves_bind (leaves_listing hR.toPrints hjson settings.url) fun listing => ?_
  refine hR.leaves_bind (leaves_writeResources hR hjson hown listing listing.apis) fun found => ?_
  refine hR.leaves_bind (leaves_writeGroup hR (hgroup found.2)) fun grouped => ?_
  exact hR.leaves_bind (hR.line _) fun _ => hR.leaves_pure _

end Service

end ApiClientGen.RunSteps
