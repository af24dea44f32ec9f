import ApiClientGen.Proofs.CachedLoad
import ApiClientGen.Proofs.FailingRuns
import ApiClientGen.Proofs.OfflineRun
import ApiClientGen.Proofs.TreeRoom

/-!
A run that is guided by a goal: a tree that has a directory, a file or a document wherever the run
will want one. From any files that can still grow into the goal the run ends well, whatever the
order in which it comes to its entries; each step finds the way that it needs or can make it, and
leaves files that can still grow into the goal.
-/
namespace ApiClientGen.GuidedRun

open CachedLoad FailingRuns FilePlaces FileTree Generate KeptDocuments OfflineRun OutputFiles Run
  RunEffect RunSuccess TreeRoom

variable {settings : Settings} {cache path : Path} {client : Web.Client} {goal : FileTree}
  {world : World} {document : String → ByteArray} {url : String} {left : List String}
  {listing : Listing} {entry : ListingEntry} {entries : List ListingEntry} {resource : Resource}
  {resources : List Resource}

/-! ### On the way to the goal -/

def Unkept (cache : Path) (url : String) (tree : FileTree) : Prop :=
  ∀ body, tree.node? (tree.placeOf (Cache.pathFor cache url)) ≠ some (.file body)

theorem Unkept.of_grows {written : Set FilePlace} {tree later : FileTree}
    (h : Unkept cache url tree) (hgrows : Grows written tree later)
    (hplace : tree.placeOf (Cache.pathFor cache url) ∉ written) : Unkept cache url later := by
  intro body
  rw [hgrows.placeOf_eq]
  rcases hgrows.cases_node (tree.placeOf (Cache.pathFor cache url)) with
    hsame | ⟨-, hdir⟩ | ⟨hmem, -⟩
  · rw [hsame]
    exact h body
  · rw [hdir]
    exact fun heq => nomatch heq
  · exact absurd hmem hplace

/-- Generated files keep no document. Under an empty key one would stand where the cache is. -/
theorem Unkept.of_outputs {tree later : FileTree} (h : Unkept cache url tree)
    (hgrows : Grows outputPlaces tree later) (hcache : tree.isDirectory cache = .ok true) :
    Unkept cache url later := by
  by_cases hkey : Cache.key url = ""
  · intro body
    have hdir := (isDirectory_eq_true_iff.mp (hgrows.isDirectory hcache)).2
    rw [pathFor_of_key_eq_empty cache hkey, hdir]
    exact fun heq => nomatch heq
  · exact h.of_grows hgrows (not_outputPlace_pathFor tree cache hkey)

/-- The goal keeps a document for a URL. -/
structure Room (goal : FileTree) (cache : Path) (url : String) : Prop where
  key_ne : Cache.key url ≠ ""
  isFile : goal.isFile (Cache.pathFor cache url) = .ok true

theorem Room.of_grows {written : Set FilePlace} {later : FileTree} (h : Room goal cache url)
    (hgrows : Grows written goal later) : Room later cache url :=
  ⟨h.key_ne, hgrows.isFile h.isFile⟩

theorem Room.directory (h : Room goal cache url) : goal.isDirectory cache = .ok true := by
  have hpath := pathFor_eq cache h.key_ne
  have hparts : (Cache.pathFor cache url).parts ≠ [] := by
    rw [hpath]
    exact List.append_ne_nil_of_right_ne_nil _ (List.cons_ne_nil _ _)
  have hparent : (Cache.pathFor cache url).parent = cache := by
    rw [hpath, Path.parent, List.dropLast_concat]
  have hdir := isDirectory_parent (isFile_eq_true_iff.mp h.isFile).1 hparts
  rwa [hparent] at hdir

/-- The files can grow into the goal, the server gives the documents, and none of these is kept
for the URLs that are left, for which the goal has room. -/
structure Heads (goal : FileTree) (document : String → ByteArray) (cache : Path)
    (left : List String) (world : World) : Prop where
  grows : Grows Set.univ world.files goal
  serves : Serves world.server document
  room : ∀ url ∈ left, Room goal cache url
  unkept : ∀ url ∈ left, Unkept cache url world.files

/-- What was printed or requested does not matter. -/
theorem Heads.same (h : Heads goal document cache left world) {other : World}
    (hfiles : other.files = world.files) (hserver : other.server = world.server) :
    Heads goal document cache left other := by
  refine ⟨?_, ?_, h.room, ?_⟩
  · rw [hfiles]
    exact h.grows
  · rw [hserver]
    exact h.serves
  · rw [hfiles]
    exact h.unkept

/-- What is printed does not lead astray. -/
theorem quiet_heads (goal : FileTree) (document : String → ByteArray) (cache : Path)
    (left : List String) : Quiet (Heads goal document cache left) :=
  fun _ _ _ h => h.same rfl rfl

/-- A directory of the goal can be made, and is there from then on. -/
theorem leads_ensureDirectories (hdir : goal.isDirectory path = .ok true) :
    Leads (Heads goal document cache left) (ensureDirectories path) () fun world =>
      Heads goal document cache left world ∧ world.files.isDirectory path = .ok true := by
  intro world h
  obtain ⟨changed, hmake, hgrows⟩ := exists_ensureDirectories_eq_ok h.grows hdir
  obtain ⟨hmade, hthere⟩ := grows_of_ensureDirectories hmake
  exact ⟨{ world with files := changed }, ends_ensureDirectories_ok_iff.mpr ⟨changed, hmake, rfl⟩,
    ⟨hgrows, h.serves, h.room,
      fun url hmem => (h.unkept url hmem).of_grows hmade (Set.notMem_empty _)⟩, hthere⟩

/-- A file of the goal can be written. Where it is no document none is kept by that. -/
theorem leads_writeFile (document : String → ByteArray) (hfile : goal.isFile path = .ok true)
    (content : ByteArray) {further : List String} (hsub : ∀ url ∈ further, url ∈ left)
    (hplace : ∀ url ∈ further,
      goal.placeOf (Cache.pathFor cache url) ≠ goal.placeOf path) :
    Leads (fun world => Heads goal document cache left world ∧
        world.files.isDirectory path.parent = .ok true)
      (writeFile path content) () (Heads goal document cache further) := by
  rintro world ⟨h, hparent⟩
  obtain ⟨changed, hwrite, hgrows⟩ := exists_write_eq_ok h.grows hfile hparent content
  refine ⟨{ world with files := changed }, ends_writeFile_ok_iff.mpr ⟨changed, hwrite, rfl⟩,
    hgrows, h.serves, fun url hmem => h.room url (hsub url hmem), fun url hmem => ?_⟩
  refine (h.unkept url (hsub url hmem)).of_grows (grows_of_write hwrite).1 ?_
  rw [← h.grows.placeOf_eq, ← h.grows.placeOf_eq]
  exact hplace url hmem

theorem leads_writeText (houtput : IsOutput path) (hfile : goal.isFile path = .ok true)
    (text : String) :
    Leads (Heads goal document cache left) (writeText path text) path
      (Heads goal document cache left) := by
  have hparts : path.parts ≠ [] := by
    obtain ⟨front, stem, hparts⟩ := houtput
    rw [hparts]
    exact List.append_ne_nil_of_right_ne_nil _ (List.cons_ne_nil _ _)
  have hparent := isDirectory_parent (isFile_eq_true_iff.mp hfile).1 hparts
  intro world h
  have hplace : ∀ url ∈ left, goal.placeOf (Cache.pathFor cache url) ≠ goal.placeOf path := by
    intro url hmem heq
    apply not_outputPlace_pathFor goal cache (h.room url hmem).key_ne
    rw [heq]
    exact outputPlace_placeOf goal houtput
  have hwrite := leads_writeFile document hfile text.toUTF8 (fun _ => id) hplace
  exact (leads_ensureDirectories hparent).bind (hwrite.bind (leads_pure path)) world h

/-! ### Fetching -/

/-- A success that sends nowhere on is the answer of every client. -/
theorem leads_getBody (client : Web.Client) {target : Web.Url}
    (hurl : Web.Url.ofString url = .ok target) :
    Leads (Heads goal document cache left) (Web.getBody client url)
      (document target.target.text) (Heads goal document cache left) := by
  intro world h
  obtain ⟨response, hreply, hsuccess, hbody⟩ := h.serves world.requests target.target.text
  generalize hasked : { world with requests := target.target.text :: world.requests } = asked
  have hask : Ends (Web.ask client target.target) world (.ok (response, none)) asked := by
    rw [Web.ask, ends_bind_ok_iff]
    refine ⟨response, asked, ends_request_ok_iff.mpr ⟨hreply, hasked.symm⟩, ?_⟩
    rw [redirect?_eq_none_of_isSuccess hsuccess]
    exact ends_pure_iff.mpr ⟨rfl, rfl⟩
  have hfollow : Ends (Web.follow client Web.redirectLimit target.target) world
      (.ok (target.target, response)) asked := hask.bind (ends_pure_iff.mpr ⟨rfl, rfl⟩)
  have haccepted : Web.accepted target.target response = .ok response := if_pos hsuccess
  have hbody : Ends (Web.getBody client url) world (.ok (document target.target.text)) asked := by
    rw [← hbody]
    exact (ends_ofExcept_ok_iff.mpr ⟨hurl, rfl⟩).bind (hfollow.bind
      ((ends_ofExcept_ok_iff.mpr ⟨haccepted, rfl⟩).bind (ends_pure_iff.mpr ⟨rfl, rfl⟩)))
  subst hasked
  exact ⟨_, hbody, h.same rfl rfl⟩

theorem exists_of_served {value : Json} (h : served document url = .ok value) :
    ∃ target, Web.Url.ofString url = .ok target ∧
      Fetch.readDocument url (document target.target.text) = .ok value := by
  rw [served] at h
  cases hurl : Web.Url.ofString url with
  | error fault =>
    rw [hurl] at h
    cases h
  | ok target =>
    rw [hurl] at h
    exact ⟨target, rfl, h⟩

/-- Where nothing is kept, the cache does not find anything. -/
theorem leads_read (hmem : url ∈ left) :
    Leads (Heads goal document cache left) (Cache.read cache url) none
      (Heads goal document cache left) := by
  intro world h
  refine ⟨world, ends_read_iff.mpr ⟨rfl, ?_⟩, h⟩
  obtain ⟨hresolve, -⟩ := isFile_eq_true_iff.mp (h.room url hmem).isFile
  dsimp only
  rw [isFile, FileTree.look]
  rcases resolve_or_notFound h.grows hresolve with hfound | hmissing
  · rw [hfound]
    rcases hnode : world.files.node? (goal.placeOf (Cache.pathFor cache url)) with _ | _ | body
    · simp [Except.map, hnode]
    · simp [Except.map, hnode]
    · rw [h.grows.placeOf_eq] at hnode
      exact absurd hnode (h.unkept url hmem body)
  · rw [hmissing]
    rfl

/-- Fetching a document gives the one that is served, and keeps it. -/
theorem leads_json (client : Web.Client) {value : Json} (hvalue : served document url = .ok value)
    (hkeys : ∀ other ∈ left, Cache.key other ≠ Cache.key url) :
    Leads (Heads goal document cache (url :: left)) (Fetch.json cache client url) value
      (Heads goal document cache left) := by
  intro world h
  have hroom := h.room url List.mem_cons_self
  obtain ⟨target, hurl, hread⟩ := exists_of_served hvalue
  have hplace : ∀ other ∈ left, goal.placeOf (Cache.pathFor cache other) ≠
      goal.placeOf (Cache.pathFor cache url) :=
    fun other hmem => placeOf_pathFor_ne goal cache hroom.key_ne (hkeys other hmem)
  have hparent : (Cache.pathFor cache url).parent = cache := by
    rw [pathFor_eq cache hroom.key_ne, Path.parent, List.dropLast_concat]
  have hkeep : Leads (Heads goal document cache (url :: left))
      (Cache.write cache url (document target.target.text)) (Cache.pathFor cache url)
      (Heads goal document cache left) := by
    have hwrite := leads_writeFile document hroom.isFile
      (document target.target.text) (fun _ => List.mem_cons_of_mem url) hplace
    rw [hparent] at hwrite
    exact (leads_ensureDirectories hroom.directory).bind (hwrite.bind (leads_pure _))
  refine Leads.bind (leads_read List.mem_cons_self) ?_ world h
  exact ((quiet_heads _ _ _ _).leads_printLine _).bind ((leads_getBody client hurl).bind
    ((leads_ofExcept hread).bind (hkeep.bind (leads_pure value))))

def ServesListing (document : String → ByteArray) (url : String) (listing : Listing) : Prop :=
  ∃ value, served document url = .ok value ∧ Schema.readListing value = .good listing

theorem leads_listing_of_serves (client : Web.Client) (h : ServesListing document url listing)
    (hkeys : ∀ other ∈ left, Cache.key other ≠ Cache.key url) :
    Leads (Heads goal document cache (url :: left)) (Fetch.listing cache client url) listing
      (Heads goal document cache left) := by
  obtain ⟨value, hvalue, hgood⟩ := h
  exact leads_listing (leads_json client hvalue hkeys) hgood

def ServesResource (document : String → ByteArray) (root : String) (listing : Listing)
    (entry : ListingEntry) (resource : Resource) : Prop :=
  ∃ value found, served document (Fetch.entryUrl root listing entry) = .ok value ∧
    Schema.readResource value = .good found ∧ resource = Fetch.withPath entry found

theorem leads_resource_of_serves (client : Web.Client) {root : String}
    (h : ServesResource document root listing entry resource)
    (hkeys : ∀ other ∈ left, Cache.key other ≠ Cache.key (Fetch.entryUrl root listing entry)) :
    Leads (Heads goal document cache (Fetch.entryUrl root listing entry :: left))
      (Fetch.resource cache client root listing entry) resource
      (Heads goal document cache left) := by
  obtain ⟨value, found, hvalue, hgood, rfl⟩ := h
  exact leads_resource (quiet_heads _ _ _ _) (leads_json client hvalue hkeys) hgood

/-! ### Writing -/

def Fits (goal : FileTree) (draft : Draft) : Prop :=
  IsOutput draft.1 ∧ goal.isFile draft.1 = .ok true

theorem canWriteAll {list : List Draft} (h : ∀ draft ∈ list, Fits goal draft) :
    CanWriteAll (Heads goal document cache left) list :=
  fun draft hmem => leads_writeText (h draft hmem).1 (h draft hmem).2 draft.2

theorem leads_writeResources (client : Web.Client)
    (hserved : List.Forall₂ (ServesResource document settings.url listing) entries resources)
    (hpasses : ∀ resource ∈ resources, Passes settings resource)
    (h : ∀ draft ∈ resources.flatMap (resourceDrafts settings), Fits goal draft)
    (hkeys : ((entries.map (Fetch.entryUrl settings.url listing)).map Cache.key).Nodup) :
    Leads (Heads goal document cache (entries.map (Fetch.entryUrl settings.url listing)))
      (writeResources settings cache client listing entries)
      ((resources.flatMap (resourceDrafts settings)).map Prod.fst, resources)
      (Heads goal document cache []) := by
  induction hserved with
  | nil => exact leads_pure ([], [])
  | @cons entry resource entries resources hresource _ ih =>
    rw [List.flatMap_cons, List.forall_mem_append] at h
    rw [List.forall_mem_cons] at hpasses
    rw [List.map_cons, List.map_cons, List.nodup_cons] at hkeys
    have hother : ∀ other ∈ entries.map (Fetch.entryUrl settings.url listing),
        Cache.key other ≠ Cache.key (Fetch.entryUrl settings.url listing entry) :=
      fun other hmem heq => hkeys.1 (heq ▸ List.mem_map_of_mem hmem)
    rw [List.flatMap_cons, List.map_append]
    have hwrite := leads_writeResource
      (quiet_heads goal document cache (entries.map (Fetch.entryUrl settings.url listing)))
      (fun _ => hpasses.1) (canWriteAll h.1)
    exact (leads_resource_of_serves client hresource hother).bind
      (hwrite.bind ((ih hpasses.2 h.2 hkeys.2).bind (leads_pure _)))

theorem leads_prepare_of_goal (hdest : goal.isDirectory settings.dest = .ok true)
    (hinterfaces : settings.splitInterfaces = true →
      goal.isDirectory (interfacesDir settings) = .ok true)
    (h : Fits goal (baseDraft settings)) :
    Leads (Heads goal document cache left) (prepare settings) (baseDraft settings).1
      (Heads goal document cache left) := by
  have hmade : ∀ {path : Path}, goal.isDirectory path = .ok true →
      Leads (Heads goal document cache left) (ensureDirectories path) ()
        (Heads goal document cache left) := by
    intro path hdir world hworld
    obtain ⟨last, hends, hlast, -⟩ := leads_ensureDirectories hdir world hworld
    exact ⟨last, hends, hlast⟩
  exact leads_prepare (hmade hdest) (fun hsplit => hmade (hinterfaces hsplit))
    (leads_writeText h.1 h.2 _)

/-! ### The whole run -/

/-- What a run needs of its goal and of what is served: the directories and the files that it
generates, room for the documents that it keeps, the resources, and the consent of each check. -/
structure Guides (settings : Settings) (cache : Path) (document : String → ByteArray)
    (listing : Listing) (resources : List Resource) (goal : FileTree) : Prop where
  dest : goal.isDirectory settings.dest = .ok true
  interfaces : settings.splitInterfaces = true →
    goal.isDirectory (interfacesDir settings) = .ok true
  files : ∀ draft ∈ finishedDrafts settings resources, goal.isFile draft.1 = .ok true
  room : ∀ url ∈ loadUrls settings.url listing, Room goal cache url
  keys : ((loadUrls settings.url listing).map Cache.key).Nodup
  listed : ServesListing document settings.url listing
  served : List.Forall₂ (ServesResource document settings.url listing) listing.apis resources
  passes : ∀ resource ∈ resources, Passes settings resource

/-- A run that has a goal finishes all its entries, with the resources that are served. -/
theorem Guides.reached (h : Guides settings cache document listing resources goal)
    (client : Web.Client) (hgrows : Grows Set.univ world.files goal)
    (hserves : Serves world.server document)
    (hunkept : ∀ url ∈ loadUrls settings.url listing, Unkept cache url world.files) :
    ∃ reached, Reached settings cache client world listing listing.apis [] resources reached := by
  have hfits : ∀ draft ∈ finishedDrafts settings resources, Fits goal draft :=
    fun draft hmem => ⟨isOutput_of_mem_finishedDrafts hmem, h.files draft hmem⟩
  rw [finishedDrafts, List.forall_mem_cons] at hfits
  have hkeys := h.keys
  rw [loadUrls, List.map_cons, List.nodup_cons] at hkeys
  have hroot : ∀ other ∈ listing.apis.map (Fetch.entryUrl settings.url listing),
      Cache.key other ≠ Cache.key settings.url :=
    fun other hmem heq => hkeys.1 (heq ▸ List.mem_map_of_mem hmem)
  obtain ⟨prepared, hprepare, hprepared⟩ :=
    leads_prepare_of_goal h.dest h.interfaces hfits.1 world ⟨hgrows, hserves, h.room, hunkept⟩
  obtain ⟨listed, hlisting, hlisted⟩ :=
    leads_listing_of_serves client h.listed hroot prepared hprepared
  obtain ⟨reached, hresources, -⟩ :=
    leads_writeResources client h.served h.passes hfits.2 hkeys.2 listed hlisted
  exact ⟨reached, (List.append_nil _).symm, listed, _, ⟨_, prepared, hprepare, hlisting⟩,
    hresources⟩

end ApiClientGen.GuidedRun
