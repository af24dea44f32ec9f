import ApiClientGen.Proofs.CacheEntries
import ApiClientGen.Proofs.CachedLoad
import ApiClientGen.Proofs.FetchedDocuments
import ApiClientGen.Proofs.TypeForm

/-!
A load and the cache that it leaves. What a load gives is what the documents say that the cache
holds for its URLs when it ends: a document that was read or stored on the way is there unchanged.
And a URL of the load is requested exactly if there was no entry for its key at the start and no
earlier URL of the load with that key was requested.
-/
namespace ApiClientGen.FinalCache

open CacheEntries CachedLoad FetchedDocuments FilePlaces FileTree KeptDocuments Run RunEffect

variable {cache : Path} {client : Web.Client} {url root : String} {value : Json}
  {body content : ByteArray} {world after : World} {start tree : FileTree} {asked : List String}

def keptValue (cache : Path) (tree : FileTree) (url : String) : Except Failure Json := do
  let body ← (tree.read (Cache.pathFor cache url)).mapError Failure.file
  Fetch.readDocument url body

theorem keptValue_eq_ok (hread : tree.read (Cache.pathFor cache url) = .ok body)
    (hvalue : Fetch.readDocument url body = .ok value) :
    keptValue cache tree url = .ok value := by
  rw [keptValue, hread]
  exact hvalue

section Kept

/-- A document that can be read stays as it is when another one is stored. -/
theorem read_of_stored {other : String} (h : Stored cache client url body world after)
    (hread : world.files.read (Cache.pathFor cache other) = .ok content) :
    after.files.read (Cache.pathFor cache other) = .ok content := by
  have hgrows := h.acts.grows
  by_cases hkey : Cache.key other = Cache.key url
  · have hmissing := h.missing
    rw [Cache.pathFor, ← hkey, ← Cache.pathFor, isFile_of_read hread] at hmissing
    cases hmissing
  · obtain ⟨hresolve, hnode⟩ := read_eq_ok_iff.mp hread
    rw [read_eq_ok_iff, hgrows.placeOf_eq]
    exact ⟨hgrows.resolve hresolve,
      hgrows.keeps_file (placeOf_pathFor_ne world.files cache h.key_ne hkey) hnode⟩

theorem read_of_fetches {fetches : List (String × Json)} {other : String}
    (hfetches : Fetches cache client fetches world after)
    (hread : world.files.read (Cache.pathFor cache other) = .ok content) :
    after.files.read (Cache.pathFor cache other) = .ok content := by
  induction hfetches with
  | done => exact hread
  | fetch hprinted hjson _ ih =>
    obtain ⟨said, rfl⟩ := hprinted
    obtain ⟨body, -, ⟨rfl, -⟩ | ⟨hstored, -⟩⟩ := ends_json_ok_cases hjson
    · exact ih hread
    · exact ih (read_of_stored hstored hread)

/-- Each fetched document is kept at the end. -/
theorem keptValue_of_fetches {fetches : List (String × Json)}
    (hfetches : Fetches cache client fetches world after) :
    ∀ fetch ∈ fetches, keptValue cache after.files fetch.1 = .ok fetch.2 := by
  induction hfetches with
  | done => exact List.forall_mem_nil _
  | fetch hprinted hjson hfurther ih =>
    refine List.forall_mem_cons.mpr ⟨?_, ih⟩
    obtain ⟨said, rfl⟩ := hprinted
    obtain ⟨body, hvalue, ⟨rfl, hread⟩ | ⟨hstored, -⟩⟩ := ends_json_ok_cases hjson
    · exact keptValue_eq_ok (read_of_fetches hfurther hread) hvalue
    · exact keptValue_eq_ok (read_of_fetches hfurther hstored.read_eq) hvalue

end Kept

section Wanted

/-- Those of some URLs for whose keys a tree has no entry and none was asked for earlier. -/
def wanted (cache : Path) (tree : FileTree) : (asked : List String) → List String → List String
  | _, [] => []
  | asked, url :: rest =>
    if tree.isFile (Cache.pathFor cache url) = .ok true ∨ Cache.key url ∈ asked.map Cache.key then
      wanted cache tree asked rest
    else url :: wanted cache tree (asked ++ [url]) rest

/-- From a tree at the start to a later one the documents of some URLs were stored and nothing
else was written. -/
structure Gathered (cache : Path) (start : FileTree) (asked : List String) (tree : FileTree) :
    Prop where
  grows : Grows (placesFor cache start asked) start tree
  found : ∀ url, Cache.key url ∈ asked.map Cache.key →
    tree.isFile (Cache.pathFor cache url) = .ok true
  same : asked = [] → tree = start

theorem gathered_nil (cache : Path) (start : FileTree) : Gathered cache start [] start :=
  ⟨Grows.refl _ start, fun _ hmem => absurd hmem List.not_mem_nil, fun _ => rfl⟩

theorem Gathered.stored (h : Gathered cache start asked world.files)
    (hstored : Stored cache client url body world after) :
    Gathered cache start (asked ++ [url]) after.files := by
  have hgrows := hstored.acts.grows
  rw [h.grows.placeOf_eq] at hgrows
  refine ⟨(h.grows.mono ?_).trans (hgrows.mono ?_), ?_, fun heq => by simp at heq⟩
  · rintro place ⟨other, hmem, hplace⟩
    exact ⟨other, List.mem_append_left _ hmem, hplace⟩
  · exact Set.singleton_subset_iff.mpr ⟨url, by simp, rfl⟩
  · intro other hmem
    rw [List.map_append, List.mem_append] at hmem
    rcases hmem with hmem | hmem
    · exact hstored.acts.grows.isFile (h.found other hmem)
    · rw [Cache.pathFor, List.mem_singleton.mp hmem]
      exact isFile_of_read hstored.read_eq

/-- What is not asked for lies where it lay at the start. -/
theorem Gathered.isFile_start (h : Gathered cache start asked tree)
    (hreached : Reached cache start) (hnew : Cache.key url ∉ asked.map Cache.key)
    (hfile : tree.isFile (Cache.pathFor cache url) = .ok true) :
    start.isFile (Cache.pathFor cache url) = .ok true := by
  obtain ⟨hresolve, content, hnode⟩ := isFile_eq_true_iff.mp hfile
  have hother : ∀ other ∈ asked, Cache.key other ≠ Cache.key url :=
    fun other hmem heq => hnew (heq ▸ List.mem_map_of_mem hmem)
  by_cases hkey : Cache.key url = ""
  · -- the URL leads to the directory itself, in which then nothing can be stored
    cases asked with
    | nil =>
      rw [h.same rfl] at hfile
      exact hfile
    | cons other rest =>
      have hne := hother other (List.mem_cons_self ..)
      rw [hkey] at hne
      have hfound := h.found other (List.mem_map_of_mem (List.mem_cons_self ..))
      obtain ⟨hthere, body, hbody⟩ := isFile_eq_true_iff.mp hfound
      have hread : tree.read (Cache.pathFor cache other) = .ok body :=
        read_eq_ok_iff.mpr ⟨hthere, hbody⟩
      rw [pathFor_of_key_eq_empty cache hkey, directory_of_read hne hread] at hnode
      cases hnode
  · rw [placeOf_pathFor tree cache hkey] at hnode
    have hplace : start.placeOf cache ++ [Cache.key url] ∉ placesFor cache start asked := by
      rw [← placeOf_pathFor start cache hkey]
      rintro ⟨other, hmem, hplace⟩
      exact placeOf_pathFor_ne start cache hkey (hother other hmem) hplace.symm
    have hentry : Entry cache start url content :=
      (entry_iff_of_grows h.grows hplace).mp ⟨hkey, hnode⟩
    rw [← placeOf_pathFor tree cache hkey] at hnode
    exact isFile_of_entry hentry (hreached url content hentry)
      (read_eq_ok_iff.mpr ⟨hresolve, hnode⟩)

/-- A document is found exactly if it was there at the start or was asked for. -/
theorem Gathered.isFile_iff (h : Gathered cache start asked tree)
    (hreached : Reached cache start) :
    tree.isFile (Cache.pathFor cache url) = .ok true ↔
      start.isFile (Cache.pathFor cache url) = .ok true ∨
        Cache.key url ∈ asked.map Cache.key := by
  constructor
  · intro hfile
    by_cases hmem : Cache.key url ∈ asked.map Cache.key
    · exact Or.inr hmem
    · exact Or.inl (h.isFile_start hreached hmem hfile)
  · rintro (hfile | hmem)
    · exact h.grows.isFile hfile
    · exact h.found url hmem

/-- Of the documents that are fetched those are requested that are wanted. -/
theorem gets_of_fetches {fetches : List (String × Json)}
    (hfetches : Fetches cache client fetches world after) (hreached : Reached cache start)
    (h : Gathered cache start asked world.files) :
    Gets cache client ∅ (wanted cache start asked (fetches.map Prod.fst)) world after := by
  induction hfetches generalizing asked with
  | done => exact (lasting_gets_nil cache client ∅).refl _
  | @fetch world printed _ _ _ _ _ hprinted hjson _ ih =>
    have hsaid : Gets cache client ∅ [] world printed ∧ printed.files = world.files := by
      obtain ⟨said, rfl⟩ := hprinted
      exact ⟨(lasting_gets_nil cache client ∅).printed world said world.stderr, rfl⟩
    rw [← hsaid.2] at h
    rw [List.map_cons, wanted]
    obtain ⟨body, -, ⟨rfl, hread⟩ | ⟨hstored, hgets⟩⟩ := ends_json_ok_cases hjson
    · rw [if_pos ((h.isFile_iff hreached).mp (isFile_of_read hread))]
      exact hsaid.1.append (ih h)
    · rw [if_neg]
      · exact hsaid.1.append (hgets.append (ih (h.stored hstored)))
      · rw [← h.isFile_iff hreached, hstored.missing]
        simp

end Wanted

section Load

variable {listing : Listing} {found : List Resource} {gives : String → Except Failure Json}

theorem readRecord_eq_ok_iff {α : Type} {checked : Schema.Checked α} {record : α} :
    Fetch.readRecord url checked = .ok record ↔ checked = .good record := by
  cases checked <;> simp [Fetch.readRecord]

/-- A resource that has no path gets that of its entry, and nothing else changes. -/
theorem withPath_eq (entry : ListingEntry) (resource : Resource) :
    Fetch.withPath entry resource = { resource with
      resourcePath := some ((nonempty? resource.resourcePath).getD
        (Fetch.withoutExtension entry.path)) } := by
  cases hpath : nonempty? resource.resourcePath with
  | none => rw [Fetch.withPath, hpath, Option.getD_none]
  | some path =>
    have hsame : Fetch.withPath entry resource = resource := by rw [Fetch.withPath, hpath]
    rw [hsame, Option.getD_some, ← ((nonempty?_eq_some_iff _ _).mp hpath).1]

theorem forall₂_of_mapM {α β : Type} {f : α → Except Failure β} {items : List α}
    {results : List β} (h : items.mapM f = .ok results) :
    List.Forall₂ (fun item result => f item = .ok result) items results := by
  induction items generalizing results with
  | nil =>
    cases h
    exact .nil
  | cons item rest ih =>
    rw [List.mapM_cons] at h
    cases hfirst : f item with
    | error failure => simp [hfirst, bind, Except.bind] at h
    | ok first =>
      cases hothers : rest.mapM f with
      | error failure => simp [hfirst, hothers, bind, Except.bind] at h
      | ok others =>
        simp only [hfirst, hothers, bind, Except.bind, pure, Except.pure] at h
        cases h
        exact .cons hfirst (ih hothers)

/-- A resource is what the document says that a cache holds for its entry, but for its path: where
the document gives none it is that of the entry without the extension. -/
def SaidFor (cache : Path) (tree : FileTree) (root : String) (listing : Listing)
    (entry : ListingEntry) (resource : Resource) : Prop :=
  ∃ value read, keptValue cache tree (Fetch.entryUrl root listing entry) = .ok value ∧
    Schema.readResource value = .good read ∧
      resource = { read with
        resourcePath := some ((nonempty? read.resourcePath).getD
          (Fetch.withoutExtension entry.path)) }

theorem saidFor_of_directResource {entry : ListingEntry} {resource : Resource}
    (h : directResource (keptValue cache tree) root listing entry = .ok resource) :
    SaidFor cache tree root listing entry resource := by
  rw [directResource] at h
  cases hvalue : keptValue cache tree (Fetch.entryUrl root listing entry) with
  | error failure => simp [hvalue, bind, Except.bind] at h
  | ok value =>
    cases hread : Schema.readResource value with
    | bad violations => simp [hvalue, hread, bind, Except.bind, Fetch.readRecord] at h
    | good read =>
      simp only [hvalue, hread, bind, Except.bind, Fetch.readRecord, pure, Except.pure] at h
      cases h
      exact ⟨value, read, hvalue, hread, withPath_eq entry read⟩

/-- A load that succeeds gives, entry by entry, what the documents say that the cache holds for
them when it ends. It requests, in order, those of its URLs for whose keys there was no entry at
the start and none was requested earlier, and it writes these entries and nothing else. -/
theorem load_reads_final_cache (hreached : Reached cache world.files)
    (hload : Ends (Fetch.load cache client root) world (.ok found) after) :
    ∃ listing value, keptValue cache after.files root = .ok value ∧
      Schema.readListing value = .good listing ∧
      List.Forall₂ (SaidFor cache after.files root listing) listing.apis found ∧
      directLoad (keptValue cache after.files) root = .ok found ∧
      Gets cache client ∅ (wanted cache world.files [] (loadUrls root listing)) world after ∧
      (client.followsRedirects = false → ∃ targets,
        List.Forall₂ (fun url target => Web.Url.ofString url = .ok target)
          (wanted cache world.files [] (loadUrls root listing)) targets ∧
        after.requests =
          (targets.map fun target => target.target.text).reverse ++ world.requests) := by
  obtain ⟨listing, value, fetches, hfetches, hread, hurls, hgives⟩ := fetches_of_load hload
  have hkept := keptValue_of_fetches hfetches
  have hdirect := hgives _ hkept
  have hroot := hkept (root, value) (List.mem_cons_self ..)
  have hall : ((root, value) :: fetches).map Prod.fst = loadUrls root listing := by
    rw [List.map_cons, hurls, loadUrls]
  have hgets := gets_of_fetches hfetches hreached (gathered_nil cache world.files)
  rw [hall] at hgets
  have hentries : listing.apis.mapM
      (directResource (keptValue cache after.files) root listing) = .ok found := by
    have hsteps := hdirect
    rw [directLoad, hroot] at hsteps
    simpa [bind, Except.bind, hread] using hsteps
  exact ⟨listing, value, hroot, readRecord_eq_ok_iff.mp hread,
    (forall₂_of_mapM hentries).imp fun _ _ => saidFor_of_directResource, hdirect, hgets,
    fun hstays => GotInTurn.requests_eq hstays hgets.got⟩

end Load

/-- Two entries of a listing with one key: the second one is not requested. -/
theorem load_of_colliding_reads_final_cache : ∃ found after listing,
    Reached ⟨.here, ["cache"]⟩ collidingWorld.files ∧
    Ends (Fetch.load ⟨.here, ["cache"]⟩ ⟨true⟩ "http://x") collidingWorld (.ok found) after ∧
    List.Forall₂ (SaidFor ⟨.here, ["cache"]⟩ after.files "http://x" listing) listing.apis found ∧
    Gets ⟨.here, ["cache"]⟩ ⟨true⟩ ∅
      (wanted ⟨.here, ["cache"]⟩ collidingWorld.files [] (loadUrls "http://x" listing))
      collidingWorld after := by
  obtain ⟨found, after, hload, -⟩ := ends_load_colliding
  have hreached : Reached ⟨.here, ["cache"]⟩ collidingWorld.files := by
    rintro url body ⟨hkey, hnode⟩
    rw [← placeOf_pathFor _ _ hkey] at hnode
    exact absurd hnode (empty_colliding _ url body)
  obtain ⟨listing, _, -, -, hsaid, -, hgets, -⟩ := load_reads_final_cache hreached hload
  exact ⟨found, after, listing, hreached, hload, hsaid, hgets⟩

def listedText : String := "\x7b\"apis\":[\x7b\"path\":\"/b\"\x7d]\x7d"

/-- A directory `b` with entries for a listing and for the one resource that it names. -/
def listedShelf : FileTree where
  here := []
  nodes := ⟨[(["b"], .directory), (["b", "httpa"], .file listedText.toUTF8),
    (["b", "httpab"], .file "\x7b\x7d".toUTF8)], by decide⟩

def listedWorld : World where
  files := listedShelf
  server := fun _ url =>
    .response ⟨200, none, (if url = "http://a" then listedText else "\x7b\x7d").toUTF8⟩

set_option maxRecDepth 10000 in
/-- Neither entry is found at the start, as the path of the cache leads over a directory that is
missing. Storing the listing makes it, and then the resource is found and not requested. -/
theorem load_through_missing_directory_finds_entry :
    Entry roundabout listedShelf "http://a" listedText.toUTF8 ∧
    Entry roundabout listedShelf "http://a/b" "\x7b\x7d".toUTF8 ∧
    wanted roundabout listedShelf [] ["http://a", "http://a/b"] = ["http://a", "http://a/b"] ∧
    ∃ found after, Ends (Fetch.load roundabout ⟨false⟩ "http://a") listedWorld (.ok found) after ∧
      found.map (·.resourcePath) = [some "/b"] ∧ after.requests = ["http://a"] := by
  have hlisting : listedShelf.isFile (Cache.pathFor roundabout "http://a") = .ok false := by cbv
  have hresource : listedShelf.isFile (Cache.pathFor roundabout "http://a/b") =
    .ok false := by cbv
  have hkeys : Cache.key "http://a/b" ≠ Cache.key "http://a" := by decide
  have hwanted : wanted roundabout listedShelf [] ["http://a", "http://a/b"] =
      ["http://a", "http://a/b"] := by
    simp [wanted, hlisting, hresource, hkeys]
  refine ⟨⟨by decide, by cbv⟩, ⟨by decide, by cbv⟩, hwanted, ?_⟩
  have hending : (fun ending : Except Failure (List Resource) × World =>
      (ending.1.map (List.map (·.resourcePath)), ending.2.requests))
      ((Fetch.load roundabout ⟨false⟩ "http://a").run.run listedWorld) =
        (.ok [some "/b"], ["http://a"]) := by cbv
  obtain ⟨hpaths, hrequests⟩ := Prod.mk.inj hending
  cases houtcome : ((Fetch.load roundabout ⟨false⟩ "http://a").run.run listedWorld).1 with
  | error failure =>
    rw [houtcome] at hpaths
    cases hpaths
  | ok found =>
    rw [houtcome] at hpaths
    exact ⟨found, _, Prod.ext houtcome rfl, Except.ok.inj hpaths, hrequests⟩

end ApiClientGen.FinalCache
