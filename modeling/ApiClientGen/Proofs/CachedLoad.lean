import ApiClientGen.Proofs.RunSteps

/-!
What a load gives that starts with an empty cache. Documents are kept under the keys of their
URLs, and different URLs may have one key. So a load gives for each URL the document that the
server serves at the first URL of the load with that key; it gives what the server serves at the
URL itself if no two URLs of the load share a key.
-/
namespace ApiClientGen.CachedLoad

open Answers FilePlaces FileTree KeptDocuments Run RunEffect RunSteps

variable {cache : Path} {client : Web.Client} {url root : String} {value : Json}
  {world between after : World} {document : String → ByteArray} {seen urls : List String}

/-- A server gives for every URL a success with one document, whatever was requested before. -/
def Serves (server : Web.Server) (document : String → ByteArray) : Prop :=
  ∀ earlier url, ∃ response, server earlier url = .response response ∧
    Web.isSuccess response.status = true ∧ response.body = document url

/-- The value of the document that is served at a URL. -/
def served (document : String → ByteArray) (url : String) : Except Failure Json := do
  let target ← (Web.Url.ofString url).mapError Failure.badUrl
  Fetch.readDocument url (document target.target.text)

/-- No file stands where a document would be kept. -/
def Empty (cache : Path) (tree : FileTree) : Prop :=
  ∀ url body, tree.node? (tree.placeOf (Cache.pathFor cache url)) ≠ some (.file body)

/-- The first of some URLs that has the key of a URL. -/
def firstOfKey? (urls : List String) (url : String) : Option String :=
  urls.find? fun other => Cache.key other = Cache.key url

/-- The first of some URLs that has the key of a URL; the URL itself if there is none. -/
def firstOfKey (urls : List String) (url : String) : String :=
  (firstOfKey? urls url).getD url

section Direct

variable (gives : String → Except Failure Json) (root : String) (listing : Listing)

/-- The resource of an entry when the values at all URLs are given. -/
def directResource (entry : ListingEntry) : Except Failure Resource := do
  let value ← gives (Fetch.entryUrl root listing entry)
  let found ← Fetch.readRecord (Fetch.entryUrl root listing entry) (Schema.readResource value)
  return Fetch.withPath entry found

def directLoad : Except Failure (List Resource) := do
  let value ← gives root
  let listing ← Fetch.readRecord root (Schema.readListing value)
  listing.apis.mapM (directResource gives root listing)

end Direct

/-- From one world to another some documents are fetched, each with its value; in between
something may be printed. -/
inductive Fetches (cache : Path) (client : Web.Client) :
    List (String × Json) → World → World → Prop
  | done {world : World} : Fetches cache client [] world world
  | fetch {world printed fetched after : World} {url : String} {value : Json}
      {further : List (String × Json)} :
    (∃ said, printed = { world with stdout := said }) →
      Ends (Fetch.json cache client url) printed (.ok value) fetched →
        Fetches cache client further fetched after →
          Fetches cache client ((url, value) :: further) world after

/-- What a load gives of some entries depends on the values of the fetched documents alone. -/
theorem fetches_of_resources {listing : Listing} {entries : List ListingEntry}
    {found : List Resource}
    (h : Ends (Fetch.resources cache client root listing entries) world (.ok found) after) :
    ∃ fetches, Fetches cache client fetches world after ∧
      fetches.map Prod.fst = entries.map (Fetch.entryUrl root listing) ∧
        ∀ gives : String → Except Failure Json,
          (∀ fetch ∈ fetches, gives fetch.1 = .ok fetch.2) →
            entries.mapM (directResource gives root listing) = .ok found := by
  induction entries generalizing world found with
  | nil =>
    obtain ⟨heq, rfl⟩ := ends_pure_iff.mp h
    cases heq
    exact ⟨[], .done, rfl, fun _ _ => rfl⟩
  | cons entry rest ih =>
    rw [Fetch.resources, ends_bind_ok_iff] at h
    obtain ⟨first, fetched, hfirst, hrest⟩ := h
    simp only [ends_bind_ok_iff, ends_pure_iff] at hrest
    obtain ⟨others, last, hothers, heq, rfl⟩ := hrest
    cases heq
    obtain ⟨said, value, read, hjson, hread, rfl⟩ := ends_resource_ok hfirst
    obtain ⟨fetches, hfetches, hurls, hgives⟩ := ih hothers
    refine ⟨_ :: fetches, .fetch ⟨said, rfl⟩ hjson hfetches, ?_, ?_⟩
    · rw [List.map_cons, List.map_cons, hurls]
    · intro gives hall
      obtain ⟨hvalue, hothers⟩ := List.forall_mem_cons.mp hall
      rw [List.mapM_cons, directResource, hvalue, hgives gives hothers]
      simp [bind, Except.bind, pure, Except.pure, hread]

theorem fetches_of_load {found : List Resource}
    (h : Ends (Fetch.load cache client root) world (.ok found) after) :
    ∃ listing value fetches, Fetches cache client ((root, value) :: fetches) world after ∧
      Fetch.readRecord root (Schema.readListing value) = .ok listing ∧
        fetches.map Prod.fst = listing.apis.map (Fetch.entryUrl root listing) ∧
          ∀ gives : String → Except Failure Json,
            (∀ fetch ∈ (root, value) :: fetches, gives fetch.1 = .ok fetch.2) →
              directLoad gives root = .ok found := by
  rw [Fetch.load, ends_bind_ok_iff] at h
  obtain ⟨listing, listed, hlisting, hresources⟩ := h
  obtain ⟨value, hjson, hread⟩ := ends_listing_ok hlisting
  obtain ⟨fetches, hfetches, hurls, hgives⟩ := fetches_of_resources hresources
  refine ⟨listing, value, fetches, .fetch ⟨world.stdout, rfl⟩ hjson hfetches, hread, hurls, ?_⟩
  intro gives hall
  obtain ⟨hvalue, hothers⟩ := List.forall_mem_cons.mp hall
  rw [directLoad, hvalue]
  simp [bind, Except.bind, hread, hgives gives hothers]

theorem redirect?_eq_none_of_isSuccess {response : Web.Response}
    (h : Web.isSuccess response.status = true) : response.redirect? = none := by
  have hstatus : response.status / 100 = 2 := by simpa [Web.isSuccess] using h
  have hstays : Web.isRedirect response.status = false := by
    rw [Web.isRedirect, List.contains_eq_mem, decide_eq_false_iff_not]
    simp only [List.mem_cons, List.not_mem_nil, or_false, not_or]
    omega
  rw [Web.Response.redirect?, hstays, if_neg Bool.false_ne_true]

/-- What a server serves that always succeeds is obtained without being sent on. -/
theorem served_of_obtained {body : ByteArray} (hserves : Serves world.server document)
    (h : Obtained world client url body) :
    ∃ target, Web.Url.ofString url = .ok target ∧ body = document target.target.text := by
  obtain ⟨target, response, hurl, hends, -, rfl⟩ := h
  refine ⟨target, hurl, ?_⟩
  cases hends with
  | answered hanswered =>
    obtain ⟨earlier, -, hserver⟩ := hanswered
    obtain ⟨given, hgiven, -, hbody⟩ := hserves earlier target.target.text
    cases hserver.symm.trans hgiven
    exact hbody
  | sentOn hfollows hanswered hlocation =>
    obtain ⟨earlier, -, hserver⟩ := hanswered
    obtain ⟨given, hgiven, hsuccess, -⟩ := hserves earlier target.target.text
    cases hserver.symm.trans hgiven
    rw [redirect?_eq_none_of_isSuccess hsuccess] at hlocation
    cases hlocation

theorem served_eq_ok {target : Web.Url} (hurl : Web.Url.ofString url = .ok target)
    (hvalue : Json.ofBytes (document target.target.text) = .ok value) :
    served document url = .ok value := by
  rw [served, hurl]
  exact readDocument_eq_ok_iff.mpr hvalue

section FirstOfKey

variable {other first : String}

theorem firstOfKey?_append (urls more : List String) (url : String) :
    firstOfKey? (urls ++ more) url = (firstOfKey? urls url).or (firstOfKey? more url) :=
  List.find?_append

theorem firstOfKey?_singleton_of_ne (hne : Cache.key other ≠ Cache.key url) :
    firstOfKey? [url] other = none := by
  simp [firstOfKey?, Ne.symm hne]

theorem firstOfKey?_singleton_of_eq (heq : Cache.key other = Cache.key url) :
    firstOfKey? [url] other = some url := by
  simp [firstOfKey?, heq]

theorem firstOfKey?_congr (heq : Cache.key other = Cache.key url) (urls : List String) :
    firstOfKey? urls other = firstOfKey? urls url := by
  rw [firstOfKey?, firstOfKey?, heq]

/-- URLs that come later do not change which one is the first. -/
theorem firstOfKey_append_of_mem (hmem : url ∈ urls) (more : List String) :
    firstOfKey (urls ++ more) url = firstOfKey urls url := by
  have hsome : (firstOfKey? urls url).isSome := by
    rw [firstOfKey?, List.find?_isSome]
    exact ⟨url, hmem, by simp⟩
  obtain ⟨first, hfirst⟩ := Option.isSome_iff_exists.mp hsome
  rw [firstOfKey, firstOfKey, firstOfKey?_append, hfirst, Option.some_or]

theorem firstOfKey_of_injOn (h : Set.InjOn Cache.key {url | url ∈ urls}) (hmem : url ∈ urls) :
    firstOfKey urls url = url := by
  rw [firstOfKey]
  cases hfirst : firstOfKey? urls url with
  | none => rfl
  | some first =>
    have hkey : Cache.key first = Cache.key url := by simpa using List.find?_some hfirst
    exact h (List.mem_of_find?_eq_some hfirst) hmem hkey

end FirstOfKey

/-- A cache holds for each key the document at the first of the URLs that were fetched, and
nothing for the other keys. -/
structure Holds (cache : Path) (document : String → ByteArray) (seen : List String)
    (tree : FileTree) : Prop where
  kept : ∀ url first, firstOfKey? seen url = some first → ∃ target,
    Web.Url.ofString first = .ok target ∧
      tree.read (Cache.pathFor cache url) = .ok (document target.target.text)
  missing : ∀ url, firstOfKey? seen url = none → ∀ body,
    tree.node? (tree.placeOf (Cache.pathFor cache url)) ≠ some (.file body)

theorem holds_nil (h : Empty cache world.files) : Holds cache document [] world.files := by
  refine ⟨?_, fun url _ => h url⟩
  intro url first hfirst
  cases hfirst

section Step

variable (hserves : Serves world.server document)
  (h : Holds cache document seen world.files)
include h

/-- A URL whose key was met before changes nothing. -/
theorem Holds.again (hfirst : firstOfKey? seen url ≠ none) :
    Holds cache document (seen ++ [url]) world.files := by
  have hsame : ∀ other, firstOfKey? (seen ++ [url]) other = firstOfKey? seen other := by
    intro other
    rw [firstOfKey?_append]
    by_cases hkey : Cache.key other = Cache.key url
    · rw [← firstOfKey?_congr hkey] at hfirst
      obtain ⟨first, hfirst⟩ := Option.ne_none_iff_exists'.mp hfirst
      rw [hfirst, Option.some_or]
    · rw [firstOfKey?_singleton_of_ne hkey, Option.or_none]
  refine ⟨fun other first hother => h.kept other first ?_, fun other hother => h.missing other ?_⟩
  · rwa [hsame] at hother
  · rwa [hsame] at hother

/-- A URL whose key is new brings the document that is served there. -/
theorem Holds.stored {target : Web.Url}
    (hstored : Stored cache client url (document target.target.text) world after)
    (hnone : firstOfKey? seen url = none) (hurl : Web.Url.ofString url = .ok target) :
    Holds cache document (seen ++ [url]) after.files := by
  have hgrows := hstored.acts.grows
  refine ⟨?_, ?_⟩
  · intro other first hfirst
    rw [firstOfKey?_append] at hfirst
    by_cases hkey : Cache.key other = Cache.key url
    · rw [firstOfKey?_congr hkey, hnone, Option.none_or, firstOfKey?_singleton_of_eq hkey]
        at hfirst
      cases hfirst
      refine ⟨target, hurl, ?_⟩
      rw [Cache.pathFor, hkey]
      exact hstored.read_eq
    · rw [firstOfKey?_singleton_of_ne hkey, Option.or_none] at hfirst
      obtain ⟨found, hfound, hread⟩ := h.kept other first hfirst
      obtain ⟨hresolve, hnode⟩ := read_eq_ok_iff.mp hread
      refine ⟨found, hfound, read_eq_ok_iff.mpr ?_⟩
      rw [hgrows.placeOf_eq]
      exact ⟨hgrows.resolve hresolve,
        hgrows.keeps_file (placeOf_pathFor_ne world.files cache hstored.key_ne hkey) hnode⟩
  · intro other hfirst body hnode
    rw [firstOfKey?_append, Option.or_eq_none_iff] at hfirst
    obtain ⟨hold, hnew⟩ := hfirst
    by_cases hkey : Cache.key other = Cache.key url
    · rw [firstOfKey?_singleton_of_eq hkey] at hnew
      cases hnew
    · have hplace := placeOf_pathFor_ne world.files cache hstored.key_ne hkey
      rw [hgrows.placeOf_eq] at hnode
      rcases hgrows.cases_node (world.files.placeOf (Cache.pathFor cache other)) with
        hsame | ⟨-, hdir⟩ | ⟨hmem, -⟩
      · rw [hsame] at hnode
        exact h.missing other hold body hnode
      · rw [hdir] at hnode
        cases hnode
      · exact hplace hmem

include hserves

/-- Fetching a document gives the one that is served at the first URL with its key. -/
theorem Holds.fetch (hjson : Ends (Fetch.json cache client url) world (.ok value) after) :
    served document (firstOfKey (seen ++ [url]) url) = .ok value ∧
      Holds cache document (seen ++ [url]) after.files := by
  rw [firstOfKey, firstOfKey?_append]
  rcases ends_json_cases hjson with ⟨failure, heq, -⟩ | ⟨found, body, heq, hvalue, hcases⟩
  · cases heq
  cases heq
  have hvalue := readDocument_eq_ok_iff.mp hvalue
  cases hfirst : firstOfKey? seen url with
  | some first =>
    obtain ⟨target, hurl, hread⟩ := h.kept url first hfirst
    obtain ⟨rfl, hhit⟩ | hstored := hcases
    · cases hhit.symm.trans hread
      exact ⟨served_eq_ok hurl hvalue, h.again (by simp [hfirst])⟩
    · have hmissing := hstored.missing
      rw [isFile_of_read hread] at hmissing
      cases hmissing
  | none =>
    obtain ⟨rfl, hhit⟩ | hstored := hcases
    · exact absurd (read_eq_ok_iff.mp hhit).2 (h.missing url hfirst body)
    · have hserved : Serves after.server document := by
        rw [hstored.acts.server_eq]
        exact hserves
      obtain ⟨target, hurl, rfl⟩ := served_of_obtained hserved hstored.obtained
      rw [Option.none_or, firstOfKey?_singleton_of_eq rfl]
      exact ⟨served_eq_ok hurl hvalue, h.stored hstored hfirst hurl⟩

end Step

theorem Fetches.served {fetches : List (String × Json)}
    (hfetches : Fetches cache client fetches world after)
    (hserves : Serves world.server document) (h : Holds cache document seen world.files) :
    ∀ fetch ∈ fetches,
      served document (firstOfKey (seen ++ fetches.map Prod.fst) fetch.1) = .ok fetch.2 := by
  induction hfetches generalizing seen with
  | done => exact List.forall_mem_nil _
  | @fetch world printed fetched after url value further hprinted hjson _ ih =>
    have hsame : printed.server = world.server ∧ printed.files = world.files := by
      obtain ⟨said, rfl⟩ := hprinted
      exact ⟨rfl, rfl⟩
    rw [← hsame.1] at hserves
    rw [← hsame.2] at h
    obtain ⟨hvalue, hholds⟩ := h.fetch hserves hjson
    have hlater : Serves fetched.server document := by
      rw [(leaves_json cache client url hjson).server_eq]
      exact hserves
    have hsplit : seen ++ ((url, value) :: further).map Prod.fst =
        (seen ++ [url]) ++ further.map Prod.fst := by
      rw [List.map_cons, List.append_assoc, List.singleton_append]
    rw [hsplit]
    refine List.forall_mem_cons.mpr ⟨?_, ih hlater hholds⟩
    rw [firstOfKey_append_of_mem (by simp)]
    exact hvalue

/-- The URLs of a load, in the order in which they are fetched. -/
def loadUrls (root : String) (listing : Listing) : List String :=
  root :: listing.apis.map (Fetch.entryUrl root listing)

/-- Every document that a load fetches is the one that is served at the first of its URLs with the
same key, and the load gives what these documents give. If its URLs have different keys, each
document is the one that is served at its own URL, as if there were no cache. -/
theorem load_gives_first_of_key {found : List Resource}
    (hserves : Serves world.server document) (hempty : Empty cache world.files)
    (hload : Ends (Fetch.load cache client root) world (.ok found) after) :
    ∃ listing fetches, Fetches cache client fetches world after ∧
      fetches.map Prod.fst = loadUrls root listing ∧
      (∃ value, served document root = .ok value ∧
        Fetch.readRecord root (Schema.readListing value) = .ok listing) ∧
      (∀ fetch ∈ fetches,
        served document (firstOfKey (loadUrls root listing) fetch.1) = .ok fetch.2) ∧
      directLoad (fun url => served document (firstOfKey (loadUrls root listing) url)) root =
        .ok found ∧
      (Set.InjOn Cache.key {url | url ∈ loadUrls root listing} →
        (∀ fetch ∈ fetches, served document fetch.1 = .ok fetch.2) ∧
          directLoad (served document) root = .ok found) := by
  obtain ⟨listing, value, fetches, hfetches, hread, hurls, hgives⟩ := fetches_of_load hload
  have hall : ((root, value) :: fetches).map Prod.fst = loadUrls root listing := by
    rw [List.map_cons, hurls, loadUrls]
  have hserved := hfetches.served hserves (holds_nil hempty)
  rw [List.nil_append, hall] at hserved
  have hroot : served document root = .ok value := by
    have hfirst := hserved (root, value) (List.mem_cons_self ..)
    rwa [loadUrls, ← List.singleton_append, firstOfKey_append_of_mem (by simp), firstOfKey,
      firstOfKey?_singleton_of_eq rfl] at hfirst
  refine ⟨listing, (root, value) :: fetches, hfetches, hall, ⟨value, hroot, hread⟩, hserved,
    hgives _ hserved, ?_⟩
  intro hinj
  have hown : ∀ fetch ∈ (root, value) :: fetches,
      served document fetch.1 = .ok fetch.2 := by
    intro fetch hmem
    have hurl : fetch.1 ∈ loadUrls root listing := by
      rw [← hall]
      exact List.mem_map_of_mem hmem
    rw [← hserved fetch hmem, firstOfKey_of_injOn hinj hurl]
  exact ⟨hown, hgives _ hown⟩

/-- What a service serves two of whose URLs have one key. -/
def collidingDocument (url : String) : ByteArray :=
  let listing := "\x7b\"apis\":[\x7b\"path\":\"/a-b\"\x7d,\x7b\"path\":\"/ab\"\x7d]\x7d"
  let first := "\x7b\"resourcePath\":\"/first\"\x7d"
  let second := "\x7b\"resourcePath\":\"/second\"\x7d"
  (if url = "http://x" then listing else if url = "http://x/a-b" then first else second).toUTF8

def collidingWorld : World where
  files := ⟨[], OrderedMap.empty⟩
  server := fun _ url => .response ⟨200, none, collidingDocument url⟩

theorem serves_colliding : Serves collidingWorld.server collidingDocument := by
  intro earlier url
  have hsuccess : Web.isSuccess 200 = true := by decide
  exact ⟨⟨200, none, collidingDocument url⟩, rfl, hsuccess, rfl⟩

theorem empty_colliding (cache : Path) : Empty cache collidingWorld.files := by
  intro url body
  rw [collidingWorld, node?]
  split
  · simp
  · simp [OrderedMap.find?_empty]

set_option maxRecDepth 10000 in
/-- The second resource of the load is the first one again. -/
theorem ends_load_colliding : ∃ found after,
    Ends (Fetch.load ⟨.here, ["cache"]⟩ ⟨true⟩ "http://x") collidingWorld (.ok found) after ∧
      found.map (·.resourcePath) = [some "/first", some "/first"] := by
  have hpaths : ((Fetch.load ⟨.here, ["cache"]⟩ ⟨true⟩ "http://x").run.run collidingWorld).1.map
      (List.map (·.resourcePath)) = .ok [some "/first", some "/first"] := by cbv
  cases houtcome :
      ((Fetch.load ⟨.here, ["cache"]⟩ ⟨true⟩ "http://x").run.run collidingWorld).1 with
  | error failure =>
    rw [houtcome] at hpaths
    cases hpaths
  | ok found =>
    rw [houtcome] at hpaths
    exact ⟨found, _, Prod.ext houtcome rfl, Except.ok.inj hpaths⟩

theorem load_of_colliding_gives_first_of_key : ∃ found after listing,
    Serves collidingWorld.server collidingDocument ∧
    Empty ⟨.here, ["cache"]⟩ collidingWorld.files ∧
    Ends (Fetch.load ⟨.here, ["cache"]⟩ ⟨true⟩ "http://x") collidingWorld (.ok found) after ∧
    directLoad (fun url =>
      served collidingDocument (firstOfKey (loadUrls "http://x" listing) url))
      "http://x" = .ok found := by
  obtain ⟨found, after, hload, -⟩ := ends_load_colliding
  obtain ⟨listing, fetches, -, -, -, -, hdirect, -⟩ :=
    load_gives_first_of_key serves_colliding (empty_colliding _) hload
  exact ⟨found, after, listing, serves_colliding, empty_colliding _, hload, hdirect⟩

set_option maxRecDepth 10000 in
/-- Under its second URL the service serves another resource than the one that the load gives. -/
theorem load_of_colliding_differs_from_direct : ∃ found after,
    Serves collidingWorld.server collidingDocument ∧
    Empty ⟨.here, ["cache"]⟩ collidingWorld.files ∧
    Ends (Fetch.load ⟨.here, ["cache"]⟩ ⟨true⟩ "http://x") collidingWorld (.ok found) after ∧
    directLoad (served collidingDocument) "http://x" ≠ .ok found := by
  obtain ⟨found, after, hload, hpaths⟩ := ends_load_colliding
  refine ⟨found, after, serves_colliding, empty_colliding _, hload, ?_⟩
  intro hdirect
  have hown : (directLoad (served collidingDocument) "http://x").map (List.map (·.resourcePath)) =
      .ok [some "/first", some "/second"] := by cbv
  rw [hdirect, Except.map, hpaths] at hown
  exact absurd (Except.ok.inj hown) (by decide)

end ApiClientGen.CachedLoad
