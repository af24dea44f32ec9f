import ApiClientGen.Proofs.OutputNames
import ApiClientGen.Proofs.RunSuccess
import ApiClientGen.Proofs.TwinTrees

/-!
A run with all its documents at hand succeeds. It reads them from the cache and sends no request;
what it writes are generated files, and these replace neither a directory nor a document. So each
step finds the directories and the documents as they were at the start.
-/
namespace ApiClientGen.OfflineRun

open FilePlaces FileTree Generate KeptDocuments OutputFiles OutputNames Run RunSuccess

variable {α β : Type} {settings : Settings} {cache path : Path}
  {tree : FileTree} {world : World} {url : String}

def outputPlaces : Set FilePlace := {place | OutputPlace place}

/-- As long as a tree has changed in generated files only, a computation ends with a value and
changes nothing else either. -/
def Succeeds (tree : FileTree) (action : Run α) (value : α) : Prop :=
  ∀ world, Twins outputPlaces tree world.files →
    ∃ after, Ends action world (.ok value) after ∧ Twins outputPlaces tree after.files

section Steps

/-- A computation succeeds if it leads from trees that differ in generated files only to such
trees. -/
theorem succeeds_iff_leads {action : Run α} {value : α} : Succeeds tree action value ↔
    Leads (fun world => Twins outputPlaces tree world.files) action value
      fun world => Twins outputPlaces tree world.files :=
  Iff.rfl

/-- What is printed changes no tree. -/
theorem quiet_twins (tree : FileTree) :
    Quiet fun world => Twins outputPlaces tree world.files :=
  fun _ _ _ htwins => htwins

theorem Succeeds.bind {action : Run α} {next : α → Run β} {value : α} {result : β}
    (h : Succeeds tree action value) (hnext : Succeeds tree (next value) result) :
    Succeeds tree (action >>= next) result :=
  succeeds_iff_leads.mpr (Leads.bind h hnext)

theorem succeeds_pure (value : α) : Succeeds tree (pure value) value :=
  leads_pure value

theorem succeeds_ensureDirectories (hdir : tree.isDirectory path = .ok true) :
    Succeeds tree (ensureDirectories path) () := by
  intro world hworld
  refine ⟨world, ends_ensureDirectories_ok_iff.mpr ⟨world.files, ?_, rfl⟩, hworld⟩
  exact ensureDirectories_of_isDirectory (hworld.isDirectory hdir)

end Steps

section Writing

/-- A file can be written at a path: its directory stands, and the path leads to no directory. -/
structure Writable (tree : FileTree) (path : Path) : Prop where
  parent : tree.isDirectory path.parent = .ok true
  resolve : tree.resolve path = .ok (tree.placeOf path)
  free : tree.node? (tree.placeOf path) ≠ some .directory

instance (tree : FileTree) (path : Path) : Decidable (Writable tree path) :=
  decidable_of_iff (tree.isDirectory path.parent = .ok true ∧
      tree.resolve path = .ok (tree.placeOf path) ∧
        tree.node? (tree.placeOf path) ≠ some .directory)
    ⟨fun h => ⟨h.1, h.2.1, h.2.2⟩, fun h => ⟨h.parent, h.resolve, h.free⟩⟩

/-- A generated file is written wherever one can be, and nothing else is changed. -/
theorem succeeds_writeText (houtput : IsOutput path) (h : Writable tree path) (text : String) :
    Succeeds tree (writeText path text) path := by
  suffices hwrites : Succeeds tree (writeFile path text.toUTF8) () from
    (succeeds_ensureDirectories h.parent).bind (hwrites.bind (succeeds_pure path))
  intro world hworld
  -- where the path leads is decided by directories alone, and these are as they were
  have hplace := hworld.placeOf_eq path
  have hwrite : world.files.write path text.toUTF8 =
      .ok (world.files.put (world.files.placeOf path) (.file text.toUTF8)) := by
    refine write_eq_ok_iff.mpr ⟨?_, ?_, rfl⟩
    · rw [hplace]
      exact hworld.resolve h.resolve
    · rw [hplace, ne_eq, ← hworld.directory_iff]
      exact h.free
  exact ⟨_, ends_writeFile_ok_iff.mpr ⟨_, hwrite, rfl⟩,
    hworld.trans (Twins.of_write (outputPlace_placeOf _ houtput) hwrite)⟩

def CanWrite (tree : FileTree) (draft : Draft) : Prop :=
  IsOutput draft.1 ∧ Writable tree draft.1

/-- Drafts that can be written at the start can be written after others were. -/
theorem canWriteAll {list : List Draft} (h : ∀ draft ∈ list, CanWrite tree draft) :
    CanWriteAll (fun world => Twins outputPlaces tree world.files) list :=
  fun draft hmem => succeeds_writeText (h draft hmem).1 (h draft hmem).2 draft.2

/-- Whatever dangles is no obstacle, unless the check is strict. -/
def Passes (settings : Settings) (resource : Resource) : Prop :=
  settings.strictRefs = true → resource.danglingReferences = []

end Writing

section Reading

/-- The document of a URL is kept and has a value. -/
def Holds (tree : FileTree) (cache : Path) (url : String) (value : Json) : Prop :=
  Cache.key url ≠ "" ∧
    ∃ body, tree.read (Cache.pathFor cache url) = .ok body ∧ Json.ofBytes body = .ok value

/-- A kept document is read without a request. -/
theorem succeeds_json (client : Web.Client) {value : Json} (h : Holds tree cache url value) :
    Succeeds tree (Fetch.json cache client url) value := by
  obtain ⟨hkey, body, hread, hvalue⟩ := h
  intro world hworld
  have hplace := not_outputPlace_pathFor tree cache hkey
  exact ⟨world, ends_json_of_read (hworld.read hplace hread) (readDocument_eq_ok_iff.mpr hvalue),
    hworld⟩

def HoldsListing (tree : FileTree) (cache : Path) (url : String) (listing : Listing) : Prop :=
  ∃ value, Holds tree cache url value ∧ Schema.readListing value = .good listing

theorem succeeds_listing (client : Web.Client) {listing : Listing}
    (h : HoldsListing tree cache url listing) :
    Succeeds tree (Fetch.listing cache client url) listing := by
  obtain ⟨value, hvalue, hgood⟩ := h
  exact leads_listing (succeeds_json client hvalue) hgood

def HoldsResource (tree : FileTree) (cache : Path) (root : String) (listing : Listing)
    (entry : ListingEntry) (resource : Resource) : Prop :=
  ∃ value found, Holds tree cache (Fetch.entryUrl root listing entry) value ∧
    Schema.readResource value = .good found ∧ resource = Fetch.withPath entry found

theorem succeeds_resource (client : Web.Client) {root : String} {listing : Listing}
    {entry : ListingEntry} {resource : Resource}
    (h : HoldsResource tree cache root listing entry resource) :
    Succeeds tree (Fetch.resource cache client root listing entry) resource := by
  obtain ⟨value, found, hvalue, hgood, rfl⟩ := h
  exact leads_resource (quiet_twins tree) (succeeds_json client hvalue) hgood

/-- Entry by entry the kept document is read and what it gives is written. -/
theorem succeeds_writeResources (client : Web.Client) {listing : Listing}
    {entries : List ListingEntry} {resources : List Resource}
    (hkept : List.Forall₂ (HoldsResource tree cache settings.url listing) entries resources)
    (hpasses : settings.groupClass = "" → ∀ resource ∈ resources, Passes settings resource)
    (h : ∀ draft ∈ resources.flatMap (resourceDrafts settings), CanWrite tree draft) :
    Succeeds tree (writeResources settings cache client listing entries)
      ((resources.flatMap (resourceDrafts settings)).map Prod.fst, resources) := by
  induction hkept with
  | nil => exact succeeds_pure ([], [])
  | @cons entry resource entries resources hresource _ ih =>
    rw [List.flatMap_cons, List.forall_mem_append] at h
    have hfirst : settings.groupClass = "" → Passes settings resource :=
      fun hnone => hpasses hnone resource (List.mem_cons_self ..)
    have hrest : settings.groupClass = "" → ∀ other ∈ resources, Passes settings other :=
      fun hnone other hother => hpasses hnone other (List.mem_cons_of_mem _ hother)
    rw [List.flatMap_cons, List.map_append]
    exact (succeeds_resource client hresource).bind
      (Leads.bind (leads_writeResource (quiet_twins tree) hfirst (canWriteAll h.1))
        ((ih hrest h.2).bind (succeeds_pure _)))

end Reading

/-- What a run needs that sends no request: the directories of generated files, the listing, its
resources, a place for each file, and the consent of each check. -/
structure AtHand (settings : Settings) (cache : Path) (tree : FileTree) (listing : Listing)
    (resources : List Resource) : Prop where
  dest : tree.isDirectory settings.dest = .ok true
  interfaces : settings.splitInterfaces = true →
    tree.isDirectory (interfacesDir settings) = .ok true
  holdsListing : HoldsListing tree cache settings.url listing
  holdsResources :
    List.Forall₂ (HoldsResource tree cache settings.url listing) listing.apis resources
  writable : ∀ name ∈ fileNames settings resources, Writable tree (name.path settings)
  own : settings.groupClass = "" → ∀ resource ∈ resources, Passes settings resource
  group : settings.groupClass ≠ "" →
    ∃ merged, Resource.merge? resources = some merged ∧ Passes settings merged

/-- With all that it needs at hand a run reads its resources, ends well and lists its files. -/
theorem run_of_atHand (client : Web.Client) {listing : Listing} {resources : List Resource}
    (h : AtHand settings cache world.files listing resources) :
    Reads settings cache client world resources ∧ ∃ after,
      Ends (runWith settings cache client) world
        (.ok ((drafts settings resources).map Prod.fst)) after := by
  have hdrafts : ∀ draft ∈ drafts settings resources, CanWrite world.files draft := by
    intro draft hdraft
    have hpath : draft.1 ∈ (drafts settings resources).map Prod.fst := List.mem_map_of_mem hdraft
    rw [paths_eq, List.mem_map] at hpath
    obtain ⟨name, hname, hpath⟩ := hpath
    refine ⟨isOutput_of_mem_drafts hdraft, ?_⟩
    rw [← hpath]
    exact h.writable name hname
  rw [drafts, List.forall_mem_cons, List.forall_mem_append] at hdrafts
  obtain ⟨hbase, hown, hgroup⟩ := hdrafts
  have hprepares : Succeeds world.files (prepare settings) (baseDraft settings).1 :=
    leads_prepare (succeeds_ensureDirectories h.dest)
      (fun hsplit => succeeds_ensureDirectories (h.interfaces hsplit))
      (succeeds_writeText hbase.1 hbase.2 _)
  obtain ⟨prepared, hprepare, hprepared⟩ := hprepares world (Twins.refl _ _)
  obtain ⟨listed, hlisting, hlisted⟩ := succeeds_listing client h.holdsListing prepared hprepared
  obtain ⟨wrote, hresources, hwrote⟩ :=
    succeeds_writeResources client h.holdsResources h.own hown listed hlisted
  obtain ⟨last, hgrouped, -⟩ :=
    leads_writeGroup (quiet_twins world.files) h.group (canWriteAll hgroup) wrote hwrote
  have hpaths : (drafts settings resources).map Prod.fst = (baseDraft settings).1 ::
      ((resources.flatMap (resourceDrafts settings)).map Prod.fst ++
        (groupDrafts settings resources).map Prod.fst) := by
    rw [drafts, List.map_cons, List.map_append]
  have hends := ends_runWith_iff.mpr ⟨_, prepared, listing, listed, _, resources, wrote, _, last,
    hprepare, hlisting, hresources, hgrouped, hpaths, rfl⟩
  exact ⟨⟨_, prepared, listing, listed, _, wrote, hprepare, hlisting, hresources⟩, _, hends⟩

/-- A service with two resources that both have a model of pets; the first one answers with it. -/
def clinicWorld : World where
  files := ⟨[], ⟨[(["interfaces"], .directory),
    (["a"], .file ("\x7b\"apis\":[" ++
      "\x7b\"path\":\"b\"\x7d,\x7b\"path\":\"c\"\x7d]\x7d").toUTF8),
    (["ab"], .file ("\x7b\"models\":\x7b\"Pet\":\x7b\"id\":\"Pet\"\x7d\x7d," ++
      "\"apis\":[\x7b\"path\":\"\",\"operations\":[" ++
      "\x7b\"method\":\"\",\"nickname\":\"get\",\"type\":\"Pet\"\x7d]\x7d]\x7d").toUTF8),
    (["ac"], .file ("\x7b\"models\":\x7b\"Pet\":\x7b\"id\":\"Pet\"," ++
      "\"properties\":\x7b\"x\":\x7b\x7d\x7d\x7d\x7d\x7d").toUTF8)], by decide⟩⟩
  server := fun _ _ => .failed .connectError ""

def clinicSettings (group : String) (strict : Bool) : Settings where
  url := "a"
  dest := ⟨.here, []⟩
  cacheDir := ⟨.here, []⟩
  splitInterfaces := true
  groupClass := group
  strictRefs := strict

def clinicListing : Listing where
  apis := [{ path := "b" }, { path := "c" }]

def barePet : Model where
  id := some "Pet"

def fullPet : Model where
  id := some "Pet"
  properties := OrderedMap.empty.put "x" {}

def getPet : Operation where
  method := ""
  nickname := "get"
  type := some "Pet"

def clinics : List Resource := [
  { resourcePath := some "b", models := OrderedMap.empty.put "Pet" barePet,
    apis := [{ path := "", operations := [getPet] }] },
  { resourcePath := some "c", models := OrderedMap.empty.put "Pet" fullPet }]

theorem holdsListing_clinic : HoldsListing clinicWorld.files ⟨.here, []⟩ "a" clinicListing := by
  refine ⟨.object [("apis", .list [.object [("path", .string "b")],
    .object [("path", .string "c")]])], ⟨by decide, _, by rfl, by cbv⟩, by rfl⟩

set_option maxRecDepth 10000 in
theorem holdsResources_clinic :
    List.Forall₂ (HoldsResource clinicWorld.files ⟨.here, []⟩ "a" clinicListing)
      clinicListing.apis clinics := by
  refine .cons ?_ (.cons ?_ .nil)
  · exact ⟨.object [("models", .object [("Pet", .object [("id", .string "Pet")])]),
      ("apis", .list [.object [("path", .string ""), ("operations", .list [.object
        [("method", .string ""), ("nickname", .string "get"), ("type", .string "Pet")]])]])],
      _, ⟨by decide, _, by rfl, by cbv⟩, by rfl, by cbv⟩
  · exact ⟨.object [("models", .object [("Pet", .object [("id", .string "Pet"),
      ("properties", .object [("x", .object [])])])])],
      _, ⟨by decide, _, by rfl, by cbv⟩, by rfl, by cbv⟩

/-- The names of the files of the service, with a class for each resource or with one for both. -/
def clinicNames : List FileName :=
  [.ofClass "Api", .ofClass "B", .ofClass "C", .ofClass "G", .ofInterface "IPet",
    .ofInterface "IGetOptions"]

/-- The clinic is at hand for every run whose files have the names above. -/
theorem atHand_clinic {group : String} (strict : Bool)
    (hnames : fileNames (clinicSettings group strict) clinics ⊆ clinicNames) :
    AtHand (clinicSettings group strict) ⟨.here, []⟩ clinicWorld.files clinicListing clinics where
  dest := by
    have hpath : (clinicSettings group strict).dest = ⟨.here, []⟩ := rfl
    rw [hpath, isDirectory_eq_true_iff]
    decide
  interfaces := fun _ => by
    have hpath : interfacesDir (clinicSettings group strict) = ⟨.here, ["interfaces"]⟩ := rfl
    rw [hpath, isDirectory_eq_true_iff]
    decide
  holdsListing := holdsListing_clinic
  holdsResources := holdsResources_clinic
  writable := by
    have hfree : ∀ name ∈ clinicNames,
        Writable clinicWorld.files (name.path (clinicSettings group strict)) := by
      have hsame : FileName.path (clinicSettings group strict) =
          FileName.path (clinicSettings "" false) := by
        funext name
        cases name <;> rfl
      rw [hsame]
      decide
    exact fun name hname => hfree name (hnames hname)
  own := by
    have hclinics : ∀ resource ∈ clinics, resource.danglingReferences = [] := by
      rw [clinics, List.forall_mem_cons, List.forall_mem_singleton]
      exact ⟨by cbv, by cbv⟩
    exact fun _ resource hresource _ => hclinics resource hresource
  group := fun _ => ⟨_, rfl, fun _ => by cbv⟩

/-- Both resources in one class. -/
theorem atHand_shared_clinic (strict : Bool) :
    AtHand (clinicSettings "G" strict) ⟨.here, []⟩ clinicWorld.files clinicListing clinics :=
  atHand_clinic strict (by
    have hnames : fileNames (clinicSettings "G" strict) clinics =
        [.ofClass "Api", .ofInterface "IPet", .ofInterface "IGetOptions", .ofInterface "IPet",
          .ofClass "G"] := by cbv
    rw [hnames]
    decide)

/-- A class for each resource. -/
theorem atHand_own_clinic (strict : Bool) :
    AtHand (clinicSettings "" strict) ⟨.here, []⟩ clinicWorld.files clinicListing clinics :=
  atHand_clinic strict (by
    have hnames : fileNames (clinicSettings "" strict) clinics =
        [.ofClass "Api", .ofClass "B", .ofInterface "IPet", .ofInterface "IGetOptions",
          .ofClass "C", .ofInterface "IPet"] := by cbv
    rw [hnames]
    decide)

end ApiClientGen.OfflineRun
