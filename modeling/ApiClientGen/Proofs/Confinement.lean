import ApiClientGen.Proofs.OutputNames
import ApiClientGen.Proofs.RunSteps

/-!
Where the files of a run lie. Kept documents lie inside the cache directory, and a class has a
plain name, so that its file lies inside the directory of all generated files. The name of an
interface is made of the id of a model or of the nickname of an operation as it stands in the
document. It never starts a path of its own, but it may climb out of the directory by parts that
are two points.
-/
namespace ApiClientGen.Confinement

open FilePlaces FileTree Generate KeptDocuments OutputFiles OutputNames Run RunEffect RunSteps

variable {settings : Settings} {cache directory : Path} {client : Web.Client}
  {world before after : World} {tree : FileTree} {place : FilePlace} {name : FileName}
  {names : Set FileName} {resource : Resource} {listing : Listing} {entries : List ListingEntry}

def Inside (tree : FileTree) (directory : Path) (place : FilePlace) : Prop :=
  tree.placeOf directory <+: place

/-- The name of a file climbs to the directory above at some point. -/
def Climbs (name : FileName) : Prop :=
  ".." ∈ (Path.ofString (name.stem ++ ".ts")).parts

section Names

theorem foldl_step_of_not_mem {parts : List String} (h : ".." ∉ parts) (place : FilePlace) :
    parts.foldl step place = place ++ parts := by
  induction parts generalizing place with
  | nil => exact (List.append_nil place).symm
  | cons part rest ih =>
    obtain ⟨hpart, hrest⟩ := not_or.mp (List.mem_cons.not.mp h)
    rw [List.foldl_cons, step_of_ne (Ne.symm hpart), ih hrest, List.append_assoc,
      List.singleton_append]

theorem anchor_ofString {text : String} (h : text.toList.head? ≠ some '/') :
    (Path.ofString text).anchor = .here := by
  rw [Path.ofString]
  exact Path.anchorOf_of_head?_ne h

theorem placeOf_child_of_here (tree : FileTree) (directory : Path) {text : String}
    (h : (Path.ofString text).anchor = .here) :
    tree.placeOf (directory.child text) =
      (Path.ofString text).parts.foldl step (tree.placeOf directory) := by
  have hstart : tree.start (directory.child text) = tree.start directory := by
    rw [Path.child, Path.join, if_pos h]
    rfl
  rw [placeOf, hstart, Path.child, Path.join, if_pos h, List.foldl_append]
  rfl

/-- A file whose name does not climb lies inside the directory of all generated files. -/
theorem inside_of_not_climbs (tree : FileTree) (settings : Settings)
    (hhead : (name.stem ++ ".ts").toList.head? ≠ some '/') (h : ¬ Climbs name) :
    Inside tree settings.dest (tree.placeOf (name.path settings)) := by
  rw [Inside, FileName.path, placeOf_child_of_here tree _ (anchor_ofString hhead),
    foldl_step_of_not_mem h, placeOf_directory, List.append_assoc]
  exact List.prefix_append _ _

theorem head?_interfaceName (id : Option String) :
    (Naming.interfaceName id ++ ".ts").toList.head? ≠ some '/' := by
  rw [Naming.interfaceName]
  split
  · simp
  · decide

theorem head?_of_plain (h : name.Plain) : (name.stem ++ ".ts").toList.head? ≠ some '/' :=
  fun hhead => h.slash_not_mem (List.mem_of_mem_head? hhead)

theorem not_climbs_of_plain (h : name.Plain) : ¬ Climbs name := by
  rw [Climbs, Path.ofString_of_isPart h.slash_not_mem (isPart_ts name.stem), List.mem_singleton]
  exact (ts_ne_points name.stem).symm

/-- No name that a resource gives begins with a slash. -/
theorem head?_of_mem_resourceNames (h : name ∈ resourceNames settings resource) :
    (name.stem ++ ".ts").toList.head? ≠ some '/' := by
  rw [resourceNames, List.mem_append] at h
  rcases h with h | h
  · split at h
    · rw [List.mem_singleton.mp h]
      exact head?_of_plain (plain_className resource)
    · cases h
  · split at h
    · rw [List.mem_append, List.mem_map, List.mem_map] at h
      rcases h with ⟨model, -, rfl⟩ | ⟨operation, -, rfl⟩
      · exact head?_interfaceName model.id
      · simp [FileName.stem, Operation.optionsName]
    · cases h

/-- Only interfaces that have files of their own may climb. -/
theorem split_of_climbs (h : name ∈ resourceNames settings resource) (hclimbs : Climbs name) :
    settings.splitInterfaces = true := by
  rw [resourceNames, List.mem_append] at h
  rcases h with h | h
  · split at h
    · rw [List.mem_singleton.mp h] at hclimbs
      exact absurd hclimbs (not_climbs_of_plain (plain_className resource))
    · cases h
  · split at h
    · assumption
    · cases h

theorem plain_base : (FileName.ofClass "Api").Plain := by
  rw [FileName.Plain]
  decide

end Names

/-- The places that a run may write: those inside its two directories, and those to which some
names climb. -/
def Allowed (settings : Settings) (cache : Path) (names : Set FileName) (tree : FileTree) :
    Set FilePlace :=
  {place | Inside tree settings.dest place ∨ Inside tree cache place ∨
    ∃ name ∈ names, Climbs name ∧ place = tree.placeOf (name.path settings)}

def Stays (settings : Settings) (cache : Path) (names : Set FileName) (before after : World) :
    Prop :=
  Acts (Allowed settings cache names before.files) before after

theorem allowed_eq {before after : FileTree} (h : after.here = before.here) :
    Allowed settings cache names after = Allowed settings cache names before := by
  simp only [Allowed, Inside, placeOf_eq_of_here_eq h]

theorem lasting_stays (settings : Settings) (cache : Path) (names : Set FileName) :
    Lasting (Stays settings cache names) :=
  lasting_acts_in allowed_eq

theorem leaves_fetch (url : String) :
    Leaves (Stays settings cache names) (Fetch.json cache client url) := by
  refine leaves_json_of (lasting_stays settings cache names)
    (fun hacts => hacts.mono (Set.empty_subset _)) ?_
  intro body before last hstored
  refine hstored.acts.mono (Set.singleton_subset_iff.mpr (Or.inr (Or.inl ?_)))
  rw [Inside, placeOf_pathFor before.files cache hstored.key_ne]
  exact List.prefix_append _ _

theorem leaves_make (path : Path) :
    Leaves (Stays settings cache names) (ensureDirectories path) :=
  fun _ _ _ hends => (leaves_ensureDirectories path hends).mono (Set.empty_subset _)

theorem leaves_text (text : String) (hhead : (name.stem ++ ".ts").toList.head? ≠ some '/')
    (hname : Climbs name → name ∈ names) :
    Leaves (Stays settings cache names) (writeText (name.path settings) text) := by
  intro world outcome after hends
  refine (acts_of_writeText hends).mono (Set.singleton_subset_iff.mpr ?_)
  by_cases hclimbs : Climbs name
  · exact Or.inr (Or.inr ⟨name, hname hclimbs, hclimbs, rfl⟩)
  · exact Or.inl (inside_of_not_climbs world.files settings hhead hclimbs)

/-- Writing a resource stays inside as far as its names do not climb. -/
theorem leaves_ofResource
    (hnames : ∀ name ∈ resourceNames settings resource, Climbs name → name ∈ names) :
    Leaves (Stays settings cache names) (writeResource settings resource) := by
  refine leaves_writeResource (lasting_stays settings cache names).reports ?_
  intro draft hmem
  have hpath : draft.1 ∈ (resourceDrafts settings resource).map Prod.fst :=
    List.mem_map_of_mem hmem
  rw [resourcePaths_eq, List.mem_map] at hpath
  obtain ⟨name, hname, hpath⟩ := hpath
  rw [← hpath]
  exact leaves_text draft.2 (head?_of_mem_resourceNames hname) (hnames name hname)

/-- A resource is read on the way through some entries of a listing, whatever happens after it. -/
inductive Took (settings : Settings) (cache : Path) (client : Web.Client) (listing : Listing) :
    List ListingEntry → World → Resource → Prop
  | first {entry : ListingEntry} {rest : List ListingEntry} {world fetched : World}
      {resource : Resource} :
    Ends (Fetch.resource cache client settings.url listing entry) world (.ok resource) fetched →
      Took settings cache client listing (entry :: rest) world resource
  | later {entry : ListingEntry} {rest : List ListingEntry} {world fetched wrote : World}
      {found resource : Resource} {paths : List Path} :
    Ends (Fetch.resource cache client settings.url listing entry) world (.ok found) fetched →
      Ends (writeResource settings found) fetched (.ok paths) wrote →
        Took settings cache client listing rest wrote resource →
          Took settings cache client listing (entry :: rest) world resource

/-- A resource is read in a run, whether the run succeeds or fails later on. -/
def Taken (settings : Settings) (cache : Path) (client : Web.Client) (world : World)
    (resource : Resource) : Prop :=
  ∃ base prepared listing listed, Ends (prepare settings) world (.ok base) prepared ∧
    Ends (Fetch.listing cache client settings.url) prepared (.ok listing) listed ∧
      Took settings cache client listing listing.apis listed resource

theorem stays_of_writeResources {outcome : Except Failure (List Path × List Resource)}
    (hnames : ∀ resource, Took settings cache client listing entries world resource →
      ∀ name ∈ resourceNames settings resource, Climbs name → name ∈ names)
    (h : Ends (writeResources settings cache client listing entries) world outcome after) :
    Stays settings cache names world after := by
  have hR := lasting_stays settings cache names
  induction entries generalizing world outcome with
  | nil => exact leaves_pure hR _ h
  | cons entry rest ih =>
    rw [writeResources, ends_bind_iff] at h
    rcases h with ⟨_, hfails, -⟩ | ⟨resource, fetched, hfetch, h⟩
    · exact leaves_resource hR.prints leaves_fetch settings.url listing entry hfails
    have hfetched := leaves_resource hR.prints leaves_fetch settings.url listing entry hfetch
    have hresource : Leaves (Stays settings cache names) (writeResource settings resource) :=
      leaves_ofResource (hnames resource (.first hfetch))
    rw [ends_bind_iff] at h
    rcases h with ⟨_, hfails, -⟩ | ⟨paths, wrote, hwrite, h⟩
    · exact hR.trans hfetched (hresource hfails)
    have hwrote := hR.trans hfetched (hresource hwrite)
    have hlater : ∀ other, Took settings cache client listing rest wrote other →
        ∀ name ∈ resourceNames settings other, Climbs name → name ∈ names :=
      fun other htook => hnames other (.later hfetch hwrite htook)
    rw [ends_bind_iff] at h
    rcases h with ⟨_, hfails, -⟩ | ⟨_, last, hrest, h⟩
    · exact hR.trans hwrote (ih hlater hfails)
    · obtain ⟨-, rfl⟩ := ends_pure_iff.mp h
      exact hR.trans hwrote (ih hlater hrest)

theorem took_of_writeResources {written : List Path} {resources : List Resource}
    (h : Ends (writeResources settings cache client listing entries) world
      (.ok (written, resources)) after) :
    ∀ resource ∈ resources, Took settings cache client listing entries world resource := by
  induction entries generalizing world after written resources with
  | nil =>
    obtain ⟨heq, -⟩ := ends_pure_iff.mp h
    cases heq
    exact List.forall_mem_nil _
  | cons entry rest ih =>
    obtain ⟨found, fetched, paths, wrote, ⟨others, further⟩, hfetch, hwrite, hrest, heq⟩ :=
      ends_writeResources_cons_iff.mp h
    cases heq
    refine List.forall_mem_cons.mpr ⟨.first hfetch, ?_⟩
    exact fun other hmem => .later hfetch hwrite (ih hrest other hmem)

theorem leaves_base (text : String) :
    Leaves (Stays settings cache names) (writeText (baseDraft settings).1 text) := by
  have hpath : (baseDraft settings).1 = (FileName.ofClass "Api").path settings := by
    have hfile : baseFile = "Api" ++ ".ts" := by decide
    rw [baseDraft, hfile]
    rfl
  rw [hpath]
  exact leaves_text text (head?_of_plain plain_base)
    fun hclimbs => absurd hclimbs (not_climbs_of_plain plain_base)

theorem stays_of_runWith (hown : settings.groupClass = "")
    (hnames : ∀ resource, Taken settings cache client world resource →
      ∀ name ∈ resourceNames settings resource, Climbs name → name ∈ names)
    {outcome : Except Failure (List Path)}
    (h : Ends (runWith settings cache client) world outcome after) :
    Stays settings cache names world after := by
  have hR := lasting_stays settings cache names
  have hprepare : Leaves (Stays settings cache names) (prepare settings) :=
    leaves_prepare hR.carried leaves_make (leaves_base _)
  rw [runWith, ends_bind_iff] at h
  rcases h with ⟨_, hfails, -⟩ | ⟨base, prepared, hprepared, h⟩
  · exact hprepare hfails
  rw [ends_bind_iff] at h
  rcases h with ⟨_, hfails, -⟩ | ⟨listing, listed, hlisted, h⟩
  · exact hR.trans (hprepare hprepared)
      (leaves_listing hR.prints leaves_fetch settings.url hfails)
  have hstart := hR.trans (hprepare hprepared)
    (leaves_listing hR.prints leaves_fetch settings.url hlisted)
  have htook : ∀ resource, Took settings cache client listing listing.apis listed resource →
      ∀ name ∈ resourceNames settings resource, Climbs name → name ∈ names :=
    fun resource htook =>
      hnames resource ⟨base, prepared, listing, listed, hprepared, hlisted, htook⟩
  rw [ends_bind_iff] at h
  rcases h with ⟨_, hfails, -⟩ | ⟨found, wrote, hresources, h⟩
  · exact hR.trans hstart (stays_of_writeResources htook hfails)
  refine hR.trans (hR.trans hstart (stays_of_writeResources htook hresources)) ?_
  -- without a class for all resources only a line is printed from here on
  have hend : Leaves (Stays settings cache names) (writeGroup settings found.2) := by
    rw [writeGroup, if_pos hown]
    exact leaves_pure hR _
  exact (hend.bind hR fun _ => (leaves_printLine hR _).bind hR fun _ => leaves_pure hR _) h

/-- A place to which the name of an interface climbs that a run reads. -/
def Escape (settings : Settings) (cache : Path) (client : Web.Client) (world : World)
    (place : FilePlace) : Prop :=
  settings.splitInterfaces = true ∧ ∃ resource name, Taken settings cache client world resource ∧
    name ∈ resourceNames settings resource ∧ Climbs name ∧
      place = world.files.placeOf (name.path settings)

/-- However a run ends that has no class for all resources, the files that it creates or changes
lie inside the directory of generated files or inside the cache directory, and those that it lists
lie inside the former, except for the files of interfaces whose names climb. -/
theorem files_inside_but_escapes (hown : settings.groupClass = "")
    {outcome : Except Failure (List Path)}
    (h : Ends (runWith settings cache client) world outcome after) :
    (∀ place content, after.files.node? place = some (.file content) →
      world.files.node? place = some (.file content) ∨ Inside world.files settings.dest place ∨
        Inside world.files cache place ∨ Escape settings cache client world place) ∧
    ∀ paths, outcome = .ok paths → ∀ path ∈ paths,
      Inside world.files settings.dest (world.files.placeOf path) ∨
        Escape settings cache client world (world.files.placeOf path) := by
  refine ⟨?_, ?_⟩
  · intro place content hfile
    have hstays : Stays settings cache {name | ∃ resource,
        Taken settings cache client world resource ∧ name ∈ resourceNames settings resource}
          world after :=
      stays_of_runWith hown (fun resource htaken name hname _ => ⟨resource, htaken, hname⟩) h
    rcases hstays.grows.cases_node place with hsame | ⟨-, hdir⟩ | ⟨hplace, -⟩
    · exact Or.inl (hsame.symm.trans hfile)
    · rw [hdir] at hfile
      cases hfile
    · rcases hplace with hdest | hcache | ⟨name, ⟨resource, htaken, hname⟩, hclimbs, hplace⟩
      · exact Or.inr (Or.inl hdest)
      · exact Or.inr (Or.inr (Or.inl hcache))
      · exact Or.inr (Or.inr (Or.inr
          ⟨split_of_climbs hname hclimbs, resource, name, htaken, hname, hclimbs, hplace⟩))
  · rintro paths rfl path hpath
    obtain ⟨resources, ⟨base, prepared, listing, listed, written, wrote, hprepare, hlisting,
      hresources⟩, rfl, -⟩ := ends_runWith_ok h
    rw [paths_eq, List.mem_map] at hpath
    obtain ⟨name, hname, rfl⟩ := hpath
    rw [fileNames, if_pos hown, List.append_nil, List.mem_cons, List.mem_flatMap] at hname
    rcases hname with rfl | ⟨resource, hmem, hname⟩
    · exact Or.inl (inside_of_not_climbs world.files settings (head?_of_plain plain_base)
        (not_climbs_of_plain plain_base))
    · have htaken : Taken settings cache client world resource :=
        ⟨base, prepared, listing, listed, hprepare, hlisting,
          took_of_writeResources hresources resource hmem⟩
      by_cases hclimbs : Climbs name
      · exact Or.inr ⟨split_of_climbs hname hclimbs, resource, name, htaken, hname, hclimbs, rfl⟩
      · exact Or.inl (inside_of_not_climbs world.files settings (head?_of_mem_resourceNames hname)
          hclimbs)

/-- A service with a model whose id climbs, in a cache. -/
def climbingWorld : World where
  files := ⟨[], ⟨[(["c"], .directory),
    (["c", "a"], .file "\x7b\"apis\":[\x7b\"path\":\"b\"\x7d]\x7d".toUTF8),
    (["c", "ab"], .file "\x7b\"models\":\x7b\"\":\x7b\"id\":\"/../../../x\"\x7d\x7d\x7d".toUTF8)],
    by decide⟩⟩
  server := fun _ _ => .failed .connectError ""

def climbingSettings : Settings where
  url := "a"
  dest := ⟨.here, ["d"]⟩
  cacheDir := ⟨.here, ["c"]⟩
  splitInterfaces := true

def climbingPaths : List Path :=
  [⟨.here, ["d", "Api.ts"]⟩, ⟨.here, ["d", "B.ts"]⟩,
    ⟨.here, ["d", "interfaces", "I", "..", "..", "..", "x.ts"]⟩]

def climbingText : String := "export interface I/../../../x \x7b\n\x7d\n"

set_option maxRecDepth 10000 in
theorem ends_run_climbing : ∃ after,
    Ends (run climbingSettings ⟨true⟩) climbingWorld (.ok climbingPaths) after ∧
      after.files.node? ["x.ts"] = some (.file climbingText.toUTF8) := by
  have hending : (fun ending : Except Failure (List Path) × World =>
      (ending.1, ending.2.files.node? ["x.ts"]))
      ((run climbingSettings ⟨true⟩).run.run climbingWorld) =
        (.ok climbingPaths, some (.file climbingText.toUTF8)) := by
    rw [run, runWith, prepare, writeBase_eq]
    generalize baseText = text
    cbv
  obtain ⟨houtcome, hnode⟩ := Prod.mk.inj hending
  exact ⟨_, Prod.ext houtcome rfl, hnode⟩

theorem climbing_run_files_inside_but_escapes : ∃ after,
    climbingSettings.groupClass = "" ∧
    Ends (run climbingSettings ⟨true⟩) climbingWorld (.ok climbingPaths) after ∧
    ∀ place content, after.files.node? place = some (.file content) →
      climbingWorld.files.node? place = some (.file content) ∨
        Inside climbingWorld.files climbingSettings.dest place ∨
          Inside climbingWorld.files climbingSettings.cacheDir place ∨
            Escape climbingSettings climbingSettings.cacheDir ⟨true⟩ climbingWorld place := by
  obtain ⟨after, hends, -⟩ := ends_run_climbing
  exact ⟨after, rfl, hends, (files_inside_but_escapes rfl hends).1⟩

/-- The file of the model is created in the working directory, beside the two directories. -/
theorem climbing_run_creates_file_outside : ∃ after,
    climbingSettings.groupClass = "" ∧
    Ends (run climbingSettings ⟨true⟩) climbingWorld (.ok climbingPaths) after ∧
    climbingWorld.files.node? ["x.ts"] = none ∧
    after.files.node? ["x.ts"] = some (.file climbingText.toUTF8) ∧
    ¬ Inside climbingWorld.files climbingSettings.dest ["x.ts"] ∧
    ¬ Inside climbingWorld.files climbingSettings.cacheDir ["x.ts"] := by
  obtain ⟨after, hends, hnode⟩ := ends_run_climbing
  refine ⟨after, rfl, hends, by decide, hnode, ?_, ?_⟩
  · rw [Inside]
    decide
  · rw [Inside]
    decide

end ApiClientGen.Confinement
