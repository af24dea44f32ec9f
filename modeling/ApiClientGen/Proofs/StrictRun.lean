import ApiClientGen.Proofs.Warnings

/-!
A run that checks references strictly beside one that only warns. Up to the first check that finds
something the two do the same; there the one fails and the other shows its first warning. So the
strict run succeeds exactly when the other one succeeds without a warning, and then they end
alike.
-/
namespace ApiClientGen.StrictRun

open Generate KeptDocuments OutputFiles RequestTrail Run RunEffect RunSteps Warnings

variable {α β : Type} {settings : Settings} {cache : Path} {client : Web.Client}
  {listing : Listing} {entries : List ListingEntry} {name : String} {resource : Resource}
  {resources : List Resource} {paths : List Path} {world between after : World}

/-- The settings with a check of references that is strict or only warns. -/
def checking (settings : Settings) (strict : Bool) : Settings :=
  { settings with strictRefs := strict }

@[simp] theorem checking_groupClass (settings : Settings) (strict : Bool) :
    (checking settings strict).groupClass = settings.groupClass := rfl

/-- The warning that a class is worth, if any. -/
def classWarnings (name : String) (resource : Resource) : List Warning :=
  if resource.danglingReferences = [] then [] else [⟨name, resource.danglingReferences⟩]

/-- The warning that the class of a single resource is worth, unless all resources share one. -/
def ownWarnings (settings : Settings) (resource : Resource) : List Warning :=
  if settings.groupClass = "" then classWarnings (Naming.className resource) resource else []

/-- The warning that the class of all resources is worth, if one is asked for. -/
def groupWarnings (settings : Settings) (resources : List Resource) : List Warning :=
  if settings.groupClass = "" then []
  else (Resource.merge? resources).toList.flatMap (classWarnings settings.groupClass)

/-- The warnings that the resources of a run are worth, in the order of the checks. -/
def warnings (settings : Settings) (resources : List Resource) : List Warning :=
  resources.flatMap (ownWarnings settings) ++ groupWarnings settings resources

section Covers

/-- Where a strict computation ends well, a lax one ends in the same way. -/
def Covers (strict lax : Run α) : Prop :=
  ∀ ⦃world : World⦄ ⦃value : α⦄ ⦃after : World⦄,
    Ends strict world (.ok value) after → Ends lax world (.ok value) after

theorem Covers.refl (action : Run α) : Covers action action :=
  fun _ _ _ h => h

/-- A strict run that succeeds step by step takes the steps of the other one. -/
theorem Covers.bind {strict lax : Run α} {next further : α → Run β} (h : Covers strict lax)
    (hnext : ∀ value, Covers (next value) (further value)) :
    Covers (strict >>= next) (lax >>= further) := by
  intro world value after hends
  obtain ⟨first, between, hfirst, hrest⟩ := ends_bind_ok_iff.mp hends
  exact (h hfirst).bind (hnext first hrest)

/-- A strict check succeeds only where the other one has nothing to warn of. -/
theorem covers_checkReferences (name : String) (resource : Resource) :
    Covers (checkReferences name resource true) (checkReferences name resource false) := by
  intro world missing after hends
  by_cases hnil : resource.danglingReferences = []
  · rwa [checkReferences_of_nil hnil] at hends ⊢
  · rw [checkReferences_strict hnil] at hends
    cases (ends_throw_iff.mp hends).1

theorem covers_writeClass (settings : Settings) (name : String) (resource : Resource) :
    Covers (writeClass (checking settings true) name resource)
      (writeClass (checking settings false) name resource) :=
  (covers_checkReferences name resource).bind fun _ => Covers.refl _

theorem covers_writeResource (settings : Settings) (resource : Resource) :
    Covers (writeResource (checking settings true) resource)
      (writeResource (checking settings false) resource) := by
  have hown : Covers (writeOwnClass (checking settings true) resource)
      (writeOwnClass (checking settings false) resource) := by
    rw [writeOwnClass, writeOwnClass, checking_groupClass, checking_groupClass]
    by_cases hgroup : settings.groupClass = ""
    · rw [if_pos hgroup, if_pos hgroup]
      exact covers_writeClass settings _ resource
    · rw [if_neg hgroup, if_neg hgroup]
      exact Covers.refl _
  exact hown.bind fun _ => Covers.refl _

theorem covers_writeResources (settings : Settings) (cache : Path) (client : Web.Client)
    (listing : Listing) (entries : List ListingEntry) :
    Covers (writeResources (checking settings true) cache client listing entries)
      (writeResources (checking settings false) cache client listing entries) := by
  induction entries with
  | nil => exact Covers.refl _
  | cons entry rest ih =>
    refine (Covers.refl _).bind fun resource => ?_
    exact (covers_writeResource settings resource).bind fun _ => ih.bind fun _ => Covers.refl _

theorem covers_writeGroup (settings : Settings) (resources : List Resource) :
    Covers (writeGroup (checking settings true) resources)
      (writeGroup (checking settings false) resources) := by
  rw [writeGroup, writeGroup, checking_groupClass, checking_groupClass]
  by_cases hgroup : settings.groupClass = ""
  · rw [if_pos hgroup, if_pos hgroup]
    exact Covers.refl _
  · rw [if_neg hgroup, if_neg hgroup]
    cases Resource.merge? resources with
    | none => exact Covers.refl _
    | some merged => exact covers_writeClass settings _ merged

/-- A strict run that succeeds is a run of the other kind. -/
theorem covers_runWith (settings : Settings) (cache : Path) (client : Web.Client) :
    Covers (runWith (checking settings true) cache client)
      (runWith (checking settings false) cache client) := by
  refine (Covers.refl _).bind fun base => (Covers.refl _).bind fun listing => ?_
  refine (covers_writeResources settings cache client listing listing.apis).bind fun found => ?_
  exact (covers_writeGroup settings found.2).bind fun _ => Covers.refl _

end Covers

section Strictly

/-- How a strict computation ends where a lax one ends well and shows some warnings: in the same
way if there are none, and otherwise with what the first of them warns of. -/
def StrictEnd (strict : Run α) (world : World) (value : α) (after : World) : List Warning → Prop
  | [] => Ends strict world (.ok value) after
  | first :: _ => ∃ last, Ends strict world (.error (.dangling first.name first.missing)) last

/-- What is shown by a lax computation, and how the strict one beside it ends. -/
structure StrictlyEnds (strict : Run α) (warned : List Warning) (world : World) (value : α)
    (after : World) : Prop where
  warns : Warns warned world after
  strictEnd : StrictEnd strict world value after warned

theorem StrictlyEnds.bind {strict : Run α} {next : α → Run β} {first second : List Warning}
    {value : α} {final : β} (h : StrictlyEnds strict first world value between)
    (hnext : StrictlyEnds (next value) second between final after) :
    StrictlyEnds (strict >>= next) (first ++ second) world final after := by
  refine ⟨h.warns.append hnext.warns, ?_⟩
  have hfirst := h.strictEnd
  cases first with
  | cons warning rest =>
    obtain ⟨last, hfails⟩ := hfirst
    exact ⟨last, hfails.bind_error⟩
  | nil =>
    have hsecond := hnext.strictEnd
    cases second with
    | nil => exact hfirst.bind hsecond
    | cons warning rest =>
      obtain ⟨last, hfails⟩ := hsecond
      exact ⟨last, hfirst.bind hfails⟩

/-- What warns of nothing goes on alike. -/
theorem StrictlyEnds.after_silent {strict : Run α} {next : α → Run β} {warned : List Warning}
    {value : α} {final : β} (h : Ends strict world (.ok value) between)
    (hsilent : Leaves (Warns []) strict)
    (hnext : StrictlyEnds (next value) warned between final after) :
    StrictlyEnds (strict >>= next) warned world final after :=
  StrictlyEnds.bind ⟨hsilent h, h⟩ hnext

/-- A step without warnings is the same in a strict run. -/
theorem strictlyEnds_of_silent {action : Run α} {value : α}
    (h : Ends action world (.ok value) after) (hsilent : Leaves (Warns []) action) :
    StrictlyEnds action [] world value after :=
  ⟨hsilent h, h⟩

/-- A strict check ends as the other one, or fails with what that one warns of. -/
theorem strictlyEnds_checkReferences {missing : List String}
    (h : Ends (checkReferences name resource false) world (.ok missing) after) :
    StrictlyEnds (checkReferences name resource true) (classWarnings name resource) world missing
      after := by
  rw [classWarnings]
  by_cases hnil : resource.danglingReferences = []
  · rw [if_pos hnil]
    rw [checkReferences_of_nil hnil] at h ⊢
    exact strictlyEnds_of_silent h (prints_warns_nil.leaves_pure _)
  · rw [if_neg hnil]
    rw [checkReferences_lax hnil, ends_bind_ok_iff] at h
    obtain ⟨_, warned, hwarn, hrest⟩ := h
    obtain ⟨-, rfl⟩ := ends_pure_iff.mp hrest
    refine ⟨warns_of_warn hwarn, world, ?_⟩
    rw [checkReferences_strict hnil]
    exact ends_throw_iff.mpr ⟨rfl, rfl⟩

theorem strictlyEnds_writeClass
    (h : Ends (writeClass (checking settings false) name resource) world (.ok paths) after) :
    StrictlyEnds (writeClass (checking settings true) name resource) (classWarnings name resource)
      world paths after := by
  obtain ⟨missing, checked, hcheck, hwrite⟩ := ends_bind_ok_iff.mp h
  have hdrafts : Leaves (Warns [])
      (writeDrafts [classDraft (checking settings false) name resource]) :=
    leaves_writeDrafts prints_warns_nil.toCarried fun draft _ => leaves_draft draft
  rw [← List.append_nil (classWarnings name resource)]
  exact (strictlyEnds_checkReferences hcheck).bind (strictlyEnds_of_silent hwrite hdrafts)

/-- Only the check of its own class makes a strict run stop at a resource. -/
theorem strictlyEnds_writeResource
    (h : Ends (writeResource (checking settings false) resource) world (.ok paths) after) :
    StrictlyEnds (writeResource (checking settings true) resource) (ownWarnings settings resource)
      world paths after := by
  obtain ⟨ofClass, classed, hclass, hrest⟩ := ends_bind_ok_iff.mp h
  have hown : StrictlyEnds (writeOwnClass (checking settings true) resource)
      (ownWarnings settings resource) world ofClass classed := by
    rw [writeOwnClass, checking_groupClass] at hclass ⊢
    rw [ownWarnings]
    by_cases hgroup : settings.groupClass = ""
    · rw [if_pos hgroup] at hclass ⊢
      rw [if_pos hgroup]
      exact strictlyEnds_writeClass hclass
    · rw [if_neg hgroup] at hclass ⊢
      rw [if_neg hgroup]
      exact strictlyEnds_of_silent hclass (prints_warns_nil.leaves_pure _)
  have hR := prints_warns_nil.toCarried
  have hinterfaces : Leaves (Warns []) (writeInterfaces (checking settings false) resource) :=
    leaves_writeInterfaces hR fun draft _ => leaves_draft draft
  rw [← List.append_nil (ownWarnings settings resource)]
  exact hown.bind (strictlyEnds_of_silent hrest
    (hR.leaves_bind hinterfaces fun _ => hR.leaves_pure _))

theorem strictlyEnds_writeResources
    (h : Ends (writeResources (checking settings false) cache client listing entries) world
      (.ok (paths, resources)) after) :
    StrictlyEnds (writeResources (checking settings true) cache client listing entries)
      (resources.flatMap (ownWarnings settings)) world (paths, resources) after := by
  have hR := prints_warns_nil
  induction entries generalizing world paths resources with
  | nil =>
    obtain ⟨heq, -⟩ := ends_pure_iff.mp h
    cases heq
    exact strictlyEnds_of_silent h (hR.leaves_pure _)
  | cons entry rest ih =>
    obtain ⟨resource, fetched, written, wrote, ⟨others, further⟩, hfetch, hwrite, hrest, heq⟩ :=
      ends_writeResources_cons_iff.mp h
    cases heq
    have hsilent : Leaves (Warns [])
        (Fetch.resource cache client (checking settings true).url listing entry) :=
      leaves_resource hR leaves_fetch _ listing entry
    refine .after_silent hfetch hsilent ?_
    rw [List.flatMap_cons, ← List.append_nil (further.flatMap (ownWarnings settings))]
    exact (strictlyEnds_writeResource hwrite).bind
      ((ih hrest).bind (strictlyEnds_of_silent (ends_pure_iff.mpr ⟨rfl, rfl⟩) (hR.leaves_pure _)))

/-- The check of the class of all resources is the last that may stop a strict run. -/
theorem strictlyEnds_writeGroup
    (h : Ends (writeGroup (checking settings false) resources) world (.ok paths) after) :
    StrictlyEnds (writeGroup (checking settings true) resources)
      (groupWarnings settings resources) world paths after := by
  rw [writeGroup, checking_groupClass] at h ⊢
  rw [groupWarnings]
  by_cases hgroup : settings.groupClass = ""
  · rw [if_pos hgroup] at h ⊢
    rw [if_pos hgroup]
    exact strictlyEnds_of_silent h (prints_warns_nil.leaves_pure _)
  rw [if_neg hgroup] at h ⊢
  rw [if_neg hgroup]
  cases hmerge : Resource.merge? resources with
  | none =>
    rw [hmerge] at h
    cases (ends_throw_iff.mp h).1
  | some merged =>
    rw [hmerge] at h
    have hclass := strictlyEnds_writeClass h
    rwa [Option.toList_some, List.flatMap_singleton]

/-- Where a run succeeds that only warns, it shows the warnings that its resources are worth, and
the strict run does the same up to the first of them. -/
theorem strictlyEnds_runWith
    (h : Ends (runWith (checking settings false) cache client) world (.ok paths) after) :
    ∃ resources, Reads (checking settings false) cache client world resources ∧
      StrictlyEnds (runWith (checking settings true) cache client) (warnings settings resources)
        world paths after := by
  have hR := prints_warns_nil
  obtain ⟨base, prepared, hprepare, h⟩ := ends_bind_ok_iff.mp h
  obtain ⟨listing, listed, hlisting, h⟩ := ends_bind_ok_iff.mp h
  obtain ⟨⟨written, resources⟩, wrote, hresources, h⟩ := ends_bind_ok_iff.mp h
  obtain ⟨grouped, last, hgroup, h⟩ := ends_bind_ok_iff.mp h
  refine ⟨resources,
    ⟨base, prepared, listing, listed, written, wrote, hprepare, hlisting, hresources⟩, ?_⟩
  have hstart : Leaves (Warns []) (prepare (checking settings true)) :=
    (leaves_start _).mono FilesOnly.warns_nil
  have hlist : Leaves (Warns []) (Fetch.listing cache client (checking settings true).url) :=
    leaves_listing hR leaves_fetch _
  refine .after_silent hprepare hstart (.after_silent hlisting hlist ?_)
  rw [warnings, ← List.append_nil (groupWarnings settings resources)]
  refine (strictlyEnds_writeResources hresources).bind
    ((strictlyEnds_writeGroup hgroup).bind (strictlyEnds_of_silent h ?_))
  exact hR.leaves_bind (hR.line _) fun _ => hR.leaves_pure _

end Strictly

/-- A strict run succeeds exactly when the run that only warns succeeds without a warning, and
then both end with the same paths in the same world. Where that one succeeds with warnings, the
strict run fails with what the first of them warns of. -/
theorem strict_run_differs_only_by_failing (settings : Settings) (cache : Path)
    (client : Web.Client) (world : World) :
    (∀ paths after, Ends (runWith (checking settings true) cache client) world (.ok paths) after ↔
      Ends (runWith (checking settings false) cache client) world (.ok paths) after ∧
        after.stderr = world.stderr) ∧
    ∀ paths after, Ends (runWith (checking settings false) cache client) world (.ok paths) after →
      after.stderr ≠ world.stderr → ∃ resources first rest last,
        Reads (checking settings false) cache client world resources ∧
        warnings settings resources = first :: rest ∧
        after.stderr = world.stderr ++ warningsText (first :: rest) ∧
        Ends (runWith (checking settings true) cache client) world
          (.error (.dangling first.name first.missing)) last := by
  refine ⟨fun paths after => ⟨?_, ?_⟩, ?_⟩
  · intro h
    have hlax := covers_runWith settings cache client h
    obtain ⟨resources, -, hwarns, hstrict⟩ := strictlyEnds_runWith hlax
    refine ⟨hlax, ?_⟩
    cases hwarned : warnings settings resources with
    | nil =>
      rw [Warns, hwarned] at hwarns
      exact hwarns.trans String.append_empty
    | cons first rest =>
      rw [hwarned] at hstrict
      obtain ⟨last, hfails⟩ := hstrict
      cases (h.unique hfails).1
  · rintro ⟨hlax, hsame⟩
    obtain ⟨resources, -, hwarns, hstrict⟩ := strictlyEnds_runWith hlax
    rw [Warns, hsame, eq_comm, append_warningsText_eq_self_iff] at hwarns
    rwa [hwarns] at hstrict
  · intro paths after hlax hwarned
    obtain ⟨resources, hreads, hwarns, hstrict⟩ := strictlyEnds_runWith hlax
    cases hlist : warnings settings resources with
    | nil =>
      rw [Warns, hlist] at hwarns
      exact absurd (hwarns.trans String.append_empty) hwarned
    | cons first rest =>
      rw [Warns, hlist] at hwarns
      rw [hlist] at hstrict
      obtain ⟨last, hfails⟩ := hstrict
      exact ⟨resources, first, rest, last, hreads, hlist, hwarns, hfails⟩

def ownerWarning : String := "warning: B: unresolved model references: Owner\n"

set_option maxRecDepth 10000 in
theorem ends_lax_owner : ∃ paths after,
    Ends (runWith (checking ownerSettings false) ownerSettings.cacheDir ⟨true⟩) ownerWorld
      (.ok paths) after ∧ after.stderr = ownerWarning := by
  have hending : (fun ending : Except Failure (List Path) × World => (ending.1, ending.2.stderr))
      ((runWith (checking ownerSettings false) ownerSettings.cacheDir ⟨true⟩).run.run
        ownerWorld) = (.ok [⟨.here, ["Api.ts"]⟩, ⟨.here, ["B.ts"]⟩], ownerWarning) := by
    rw [runWith, prepare, writeBase_eq]
    generalize baseText = text
    cbv
  obtain ⟨houtcome, hstderr⟩ := Prod.mk.inj hending
  exact ⟨_, _, Prod.ext houtcome rfl, hstderr⟩

theorem strict_run_of_owner_fails : ∃ paths after,
    Ends (runWith (checking ownerSettings false) ownerSettings.cacheDir ⟨true⟩) ownerWorld
      (.ok paths) after ∧ after.stderr = ownerWarning ∧ after.stderr ≠ ownerWorld.stderr ∧
    ∃ resources first rest last,
      Reads (checking ownerSettings false) ownerSettings.cacheDir ⟨true⟩ ownerWorld resources ∧
      warnings ownerSettings resources = first :: rest ∧
      after.stderr = ownerWorld.stderr ++ warningsText (first :: rest) ∧
      Ends (runWith (checking ownerSettings true) ownerSettings.cacheDir ⟨true⟩) ownerWorld
        (.error (.dangling first.name first.missing)) last := by
  obtain ⟨paths, after, hends, hstderr⟩ := ends_lax_owner
  have hwarned : after.stderr ≠ ownerWorld.stderr := by
    rw [hstderr]
    decide
  obtain ⟨-, hfails⟩ :=
    strict_run_differs_only_by_failing ownerSettings ownerSettings.cacheDir ⟨true⟩ ownerWorld
  exact ⟨paths, after, hends, hstderr, hwarned, hfails paths after hends hwarned⟩

end ApiClientGen.StrictRun
