import ApiClientGen.Generate.Service
import ApiClientGen.Proofs.KeptDocuments

/-!
A second run on the files that a first one left. The two are followed side by side: what the first
one fetched is kept until its end, so that the second one finds it, decodes the same documents and
writes the same texts in the same order.
-/
namespace ApiClientGen.CacheReplay

open FilePlaces FileTree Generate KeptDocuments Run

variable {α β : Type} {cache path : Path} {start current next final again last : FileTree}

/-- A second run at the point at which the first one had the tree `current`. The first one went
from `start` to `final`, where the second one began; the second one has the tree `again`. A place
is as the first run has it now, or neither of them has written to it yet. -/
structure Replaying (cache : Path) (start current final again : FileTree) : Prop where
  here_eq : current.here = start.here
  keeps : Keeps cache final again
  cases_node : ∀ place, again.node? place = current.node? place ∨
    (current.node? place = start.node? place ∧ again.node? place = final.node? place)

theorem replaying_start (cache : Path) (start final : FileTree) :
    Replaying cache start start final final :=
  ⟨rfl, Keeps.refl cache final, fun _ => Or.inr ⟨rfl, rfl⟩⟩

/-- Both runs take a step in which they write the same at the same places. -/
theorem Replaying.advance {written : Set FilePlace}
    (h : Replaying cache start current final again)
    (hgrows : Grows written current next) (hfinal : Keeps cache next final)
    (hkeeps : Keeps cache again last)
    (hwritten : ∀ place ∈ written, last.node? place = next.node? place)
    (hrest : ∀ place ∉ written, last.node? place = again.node? place) :
    Replaying cache start next final last := by
  refine ⟨hgrows.here_eq.trans h.here_eq, h.keeps.trans hkeeps, ?_⟩
  intro place
  by_cases hplace : place ∈ written
  · exact Or.inl (hwritten place hplace)
  · rw [hrest place hplace]
    rcases hgrows.cases_node place with hsame | ⟨-, hdir⟩ | ⟨hmem, -⟩
    · rw [hsame]
      exact h.cases_node place
    · -- A directory that the first run makes is there when the second one begins.
      left
      rw [hdir]
      exact h.keeps.grows.directory (hfinal.grows.directory hdir)
    · exact absurd hmem hplace

/-- What a first computation achieves, a second one achieves again without asking the server,
whenever it finds what the first run left behind. -/
structure Replays (cache : Path) (start : FileTree) (action other : Run α) : Prop where
  keeps : ∀ {world value after}, Ends action world (.ok value) after →
    Keeps cache world.files after.files
  again : ∀ {world value after final second}, Ends action world (.ok value) after →
    Keeps cache after.files final → Replaying cache start world.files final second.files →
      ∃ last, Ends other second (.ok value) last ∧ last.requests = second.requests ∧
        Replaying cache start after.files final last.files

theorem Replays.bind {action other : Run α} {next further : α → Run β}
    (h : Replays cache start action other)
    (hnext : ∀ value, Replays cache start (next value) (further value)) :
    Replays cache start (action >>= next) (other >>= further) := by
  refine ⟨?_, ?_⟩
  · intro world value after hends
    obtain ⟨first, between, hfirst, hrest⟩ := ends_bind_ok_iff.mp hends
    exact (h.keeps hfirst).trans ((hnext first).keeps hrest)
  · intro world value after final second hends hfinal hreplaying
    obtain ⟨first, between, hfirst, hrest⟩ := ends_bind_ok_iff.mp hends
    obtain ⟨middle, hmiddle, hrequests, hreplaying⟩ :=
      h.again hfirst (((hnext first).keeps hrest).trans hfinal) hreplaying
    obtain ⟨last, hlast, hmore, hreplaying⟩ := (hnext first).again hrest hfinal hreplaying
    exact ⟨last, hmiddle.bind hlast, hmore.trans hrequests, hreplaying⟩

/-- A computation that neither looks at the files nor asks the server. -/
def Quiet (action : Run α) : Prop :=
  ∀ {world value after}, Ends action world (.ok value) after → after.files = world.files ∧
    ∀ second : World, ∃ last : World, Ends action second (.ok value) last ∧
      last.requests = second.requests ∧ last.files = second.files

theorem replays_of_quiet {action : Run α} (h : Quiet action) :
    Replays cache start action action := by
  refine ⟨?_, ?_⟩
  · intro world value after hends
    rw [(h hends).1]
    exact Keeps.refl cache world.files
  · intro world value after final second hends _ hreplaying
    obtain ⟨hfiles, hagain⟩ := h hends
    obtain ⟨last, hlast, hrequests, hsame⟩ := hagain second
    refine ⟨last, hlast, hrequests, ?_⟩
    rw [hfiles, hsame]
    exact hreplaying

theorem quiet_pure (value : α) : Quiet (pure value : Run α) := by
  intro world found after hends
  obtain ⟨heq, rfl⟩ := ends_pure_iff.mp hends
  exact ⟨rfl, fun second => ⟨second, ends_pure_iff.mpr ⟨heq, rfl⟩, rfl, rfl⟩⟩

theorem quiet_throw (failure : Failure) : Quiet (throw failure : Run α) := by
  intro world found after hends
  cases (ends_throw_iff.mp hends).1

theorem quiet_ofExcept {ε : Type} (failure : ε → Failure) (result : Except ε α) :
    Quiet (ofExcept failure result) := by
  intro world found after hends
  obtain ⟨heq, rfl⟩ := ends_ofExcept_ok_iff.mp hends
  exact ⟨rfl, fun second => ⟨second, ends_ofExcept_ok_iff.mpr ⟨heq, rfl⟩, rfl, rfl⟩⟩

theorem quiet_printLine (line : String) : Quiet (printLine line) := by
  intro world found after hends
  obtain ⟨-, rfl⟩ := ends_printLine_iff.mp hends
  exact ⟨rfl, fun second => ⟨_, ends_printLine_iff.mpr ⟨rfl, rfl⟩, rfl, rfl⟩⟩

theorem quiet_warn (line : String) : Quiet (warn line) := by
  intro world found after hends
  obtain ⟨-, rfl⟩ := ends_warn_iff.mp hends
  exact ⟨rfl, fun second => ⟨_, ends_warn_iff.mpr ⟨rfl, rfl⟩, rfl, rfl⟩⟩

theorem replays_pure (value : α) :
    Replays cache start (pure value : Run α) (pure value) :=
  replays_of_quiet (quiet_pure value)

theorem replays_ensureDirectories (path : Path) :
    Replays cache start (ensureDirectories path) (ensureDirectories path) := by
  refine ⟨?_, ?_⟩
  · intro world value after hends
    obtain ⟨changed, hmake, rfl⟩ := ends_ensureDirectories_ok_iff.mp hends
    exact keeps_of_grows_empty (grows_of_ensureDirectories hmake).1
  · intro world value after final second hends hfinal hreplaying
    obtain ⟨changed, hmake, rfl⟩ := ends_ensureDirectories_ok_iff.mp hends
    obtain ⟨hgrows, hdir⟩ := grows_of_ensureDirectories hmake
    have hthere : second.files.isDirectory path = .ok true :=
      hreplaying.keeps.grows.isDirectory (hfinal.grows.isDirectory hdir)
    refine ⟨second, ?_, rfl, ?_⟩
    · exact ends_ensureDirectories_ok_iff.mpr
        ⟨second.files, ensureDirectories_of_isDirectory hthere, rfl⟩
    · exact hreplaying.advance hgrows hfinal (Keeps.refl cache second.files)
        (fun place hplace => absurd hplace (Set.notMem_empty place)) fun _ _ => rfl

/-- A generated file is written once more over what the first run left there. -/
theorem replays_writeText (hpath : IsOutput path) (text : String) :
    Replays cache start (writeText path text) (writeText path text) := by
  refine ⟨?_, ?_⟩
  · intro world value after hends
    obtain ⟨-, hgrows, -⟩ := ends_writeText_ok hends
    exact keeps_of_isOutput hpath hgrows
  · intro world value after final second hends hfinal hreplaying
    obtain ⟨rfl, hgrows, hparent, hread⟩ := ends_writeText_ok hends
    have hlater : Grows Set.univ after.files second.files :=
      hfinal.grows.trans hreplaying.keeps.grows
    have hplace : second.files.placeOf value = world.files.placeOf value := by
      rw [hlater.placeOf_eq, hgrows.placeOf_eq]
    have hwrite := hlater.write_eq_ok hread text.toUTF8
    obtain ⟨hrewritten, hreread⟩ := grows_of_write hwrite
    refine ⟨_, ends_writeText_of_write (hlater.isDirectory hparent) hwrite, rfl, ?_⟩
    refine hreplaying.advance hgrows hfinal (keeps_of_isOutput hpath hrewritten) ?_ ?_
    · intro place hmem
      obtain rfl := Set.mem_singleton_iff.mp hmem
      have hnow := (read_eq_ok_iff.mp hreread).2
      have hthen := (read_eq_ok_iff.mp hread).2
      rw [hrewritten.placeOf_eq] at hnow
      rw [hgrows.placeOf_eq, ← hplace] at hthen
      rw [← hplace]
      exact hnow.trans hthen.symm
    · intro place hmem
      rw [Set.mem_singleton_iff, ← hplace] at hmem
      exact node?_put_of_ne second.files (.file text.toUTF8) hmem

/-- No file stands where the cache directory belongs. -/
def NoFile (cache : Path) (tree : FileTree) : Prop :=
  ∀ content, tree.node? (tree.placeOf cache) ≠ some (.file content)

/-- A document that the first run fetched is found by the second one. -/
theorem replays_json (hstart : NoFile cache start) (client other : Web.Client) (url : String) :
    Replays cache start (Fetch.json cache client url) (Fetch.json cache other url) := by
  refine ⟨keeps_of_ends_json, ?_⟩
  intro world value after final second hends hfinal hreplaying
  obtain ⟨⟨body, hvalue, hread⟩, hcases⟩ := ends_json_ok hends
  have hlater : Grows Set.univ after.files second.files :=
    hfinal.grows.trans hreplaying.keeps.grows
  have hagain : second.files.read (Cache.pathFor cache url) = .ok body := by
    by_cases hkey : Cache.key url = ""
    · -- The document lies at the place of the cache directory, where the first run wrote it.
      obtain rfl : after = world := by
        rcases hcases with hsame | ⟨hne, -⟩
        · exact hsame
        · exact absurd hkey hne
      rw [pathFor_of_key_eq_empty cache hkey] at hread ⊢
      obtain ⟨hresolve, hnode⟩ := read_eq_ok_iff.mp hread
      rw [read_eq_ok_iff, hlater.placeOf_eq]
      refine ⟨hlater.resolve hresolve, ?_⟩
      rcases hreplaying.cases_node (after.files.placeOf cache) with hsame | ⟨huntouched, -⟩
      · rw [hsame, hnode]
      · have hplace : start.placeOf cache = after.files.placeOf cache :=
          placeOf_eq_of_here_eq hreplaying.here_eq.symm cache
        rw [hnode, ← hplace] at huntouched
        exact absurd huntouched.symm (hstart body)
    · exact hreplaying.keeps.read_eq url body hkey (hfinal.read_eq url body hkey hread)
  refine ⟨second, ends_json_of_read hagain hvalue, rfl, ?_⟩
  rcases hcases with rfl | ⟨-, -, hgrows⟩
  · exact hreplaying
  · refine hreplaying.advance hgrows hfinal (Keeps.refl cache second.files) ?_ fun _ _ => rfl
    intro place hmem
    have hnow := (read_eq_ok_iff.mp hagain).2
    have hthen := (read_eq_ok_iff.mp hread).2
    rw [hlater.placeOf_eq] at hnow
    rw [Set.mem_singleton_iff.mp hmem, ← hgrows.placeOf_eq]
    exact hnow.trans hthen.symm

theorem replays_listing (hstart : NoFile cache start) (client other : Web.Client) (url : String) :
    Replays cache start (Fetch.listing cache client url) (Fetch.listing cache other url) := by
  refine (replays_json hstart client other url).bind fun value => ?_
  exact replays_of_quiet (quiet_ofExcept _ _)

theorem replays_resource (hstart : NoFile cache start) (client other : Web.Client) (root : String)
    (listing : Listing) (entry : ListingEntry) :
    Replays cache start (Fetch.resource cache client root listing entry)
      (Fetch.resource cache other root listing entry) := by
  refine (replays_of_quiet (quiet_printLine _)).bind fun _ => ?_
  refine (replays_json hstart client other _).bind fun value => ?_
  refine (replays_of_quiet (quiet_ofExcept _ _)).bind fun found => ?_
  exact replays_pure _

theorem replays_checkReferences (name : String) (resource : Resource) (strict : Bool) :
    Replays cache start (checkReferences name resource strict)
      (checkReferences name resource strict) := by
  unfold checkReferences
  dsimp only
  split
  · exact replays_pure _
  · split
    · exact replays_of_quiet (quiet_throw _)
    · refine (replays_of_quiet (quiet_warn _)).bind fun _ => ?_
      exact replays_pure _

theorem replays_writeDrafts {drafts : List Draft} (h : ∀ draft ∈ drafts, IsOutput draft.1) :
    Replays cache start (writeDrafts drafts) (writeDrafts drafts) := by
  induction drafts with
  | nil => exact replays_pure _
  | cons draft rest ih =>
    have hdraft : IsOutput draft.1 := h draft (List.mem_cons_self ..)
    have hrest := ih fun other hmem => h other (List.mem_cons_of_mem draft hmem)
    refine (replays_writeText hdraft draft.2).bind fun first => ?_
    refine hrest.bind fun others => ?_
    exact replays_pure _

theorem replays_writeClass (settings : Settings) (name : String) (resource : Resource) :
    Replays cache start (writeClass settings name resource)
      (writeClass settings name resource) := by
  refine (replays_checkReferences name resource settings.strictRefs).bind fun _ => ?_
  apply replays_writeDrafts
  intro draft hmem
  rw [List.mem_singleton.mp hmem]
  exact isOutput_classDraft settings name resource

theorem replays_writeResource (settings : Settings) (resource : Resource) :
    Replays cache start (writeResource settings resource) (writeResource settings resource) := by
  have hclass : Replays cache start (writeOwnClass settings resource)
      (writeOwnClass settings resource) := by
    rw [writeOwnClass]
    split
    · exact replays_writeClass settings _ resource
    · exact replays_pure _
  have hinterfaces : Replays cache start (writeInterfaces settings resource)
      (writeInterfaces settings resource) := by
    rw [writeInterfaces]
    split
    · exact replays_writeDrafts fun draft hmem => isOutput_of_mem_interfaceDrafts hmem
    · exact replays_pure _
  refine hclass.bind fun ofClass => ?_
  exact hinterfaces.bind fun ofInterfaces => replays_pure _

theorem replays_writeResources (hstart : NoFile cache start) (settings : Settings)
    (client other : Web.Client) (listing : Listing) (entries : List ListingEntry) :
    Replays cache start (writeResources settings cache client listing entries)
      (writeResources settings cache other listing entries) := by
  induction entries with
  | nil => exact replays_pure _
  | cons entry rest ih =>
    refine (replays_resource hstart client other settings.url listing entry).bind fun found => ?_
    refine (replays_writeResource settings found).bind fun written => ?_
    exact ih.bind fun others => replays_pure _

theorem replays_writeGroup (settings : Settings) (resources : List Resource) :
    Replays cache start (writeGroup settings resources) (writeGroup settings resources) := by
  unfold writeGroup
  split
  · exact replays_pure _
  · split
    · exact replays_of_quiet (quiet_throw _)
    · exact replays_writeClass settings settings.groupClass _

theorem replays_prepare (settings : Settings) :
    Replays cache start (prepare settings) (prepare settings) := by
  unfold prepare
  rw [writeBase_eq]
  have hbase : Replays cache start (writeText (settings.dest.child baseFile) baseText)
      (writeText (settings.dest.child baseFile) baseText) :=
    replays_writeText (isOutput_base settings.dest) baseText
  refine (replays_ensureDirectories settings.dest).bind fun _ => ?_
  dsimp only
  split
  · exact (replays_ensureDirectories _).bind fun _ => hbase
  · exact hbase

theorem replays_runWith (hstart : NoFile cache start) (settings : Settings)
    (client other : Web.Client) :
    Replays cache start (runWith settings cache client) (runWith settings cache other) := by
  refine (replays_prepare settings).bind fun base => ?_
  refine (replays_listing hstart client other settings.url).bind fun listing => ?_
  refine (replays_writeResources hstart settings client other listing listing.apis).bind
    fun found => ?_
  refine (replays_writeGroup settings found.2).bind fun grouped => ?_
  refine (replays_of_quiet (quiet_printLine _)).bind fun _ => ?_
  exact replays_pure _

/-- A run that could keep its listing did not find a file where the cache directory belongs. -/
theorem noFile_of_ends_runWith {settings : Settings} {client : Web.Client} {world after : World}
    {paths : List Path} (hkey : Cache.key settings.url ≠ "")
    (h : Ends (runWith settings cache client) world (.ok paths) after) :
    NoFile cache world.files := by
  rw [runWith, ends_bind_ok_iff] at h
  obtain ⟨base, prepared, hprepare, h⟩ := h
  obtain ⟨listing, listed, hlisting, -⟩ := ends_bind_ok_iff.mp h
  rw [Fetch.listing, ends_bind_ok_iff] at hlisting
  obtain ⟨value, read, hjson, -⟩ := hlisting
  have hprepared : Replays cache world.files (prepare settings) (prepare settings) :=
    replays_prepare settings
  have hgrows : Grows Set.univ world.files read.files :=
    ((hprepared.keeps hprepare).trans (keeps_of_ends_json hjson)).grows
  obtain ⟨⟨body, -, hread⟩, -⟩ := ends_json_ok hjson
  have hdir := directory_of_read hkey hread
  rw [hgrows.placeOf_eq] at hdir
  intro content hfile
  obtain ⟨later, hlater⟩ := hgrows.file hfile
  rw [hdir] at hlater
  cases hlater

/-- A second run with the settings of a first one, on the files that the first one left and
against any server, sends no request, gives the same list and leaves every file as it is. When the
listing has no key of its own this holds as far as no file stood where the cache directory
belongs. -/
theorem second_run_replays_first (settings : Settings) (client other : Web.Client)
    (world after again : World) (paths : List Path)
    (hfirst : Ends (run settings client) world (.ok paths) after)
    (hcache : Cache.key settings.url = "" → NoFile settings.cacheDir world.files)
    (hfiles : again.files = after.files) :
    ∃ last, Ends (run settings other) again (.ok paths) last ∧
      last.requests = again.requests ∧
        ∀ place, last.files.node? place = after.files.node? place := by
  have hstart : NoFile settings.cacheDir world.files := by
    by_cases hkey : Cache.key settings.url = ""
    · exact hcache hkey
    · exact noFile_of_ends_runWith hkey hfirst
  have hreplaying :
      Replaying settings.cacheDir world.files world.files after.files again.files := by
    rw [hfiles]
    exact replaying_start settings.cacheDir world.files after.files
  have hreplays : Replays settings.cacheDir world.files (run settings client)
      (run settings other) :=
    replays_runWith hstart settings client other
  obtain ⟨last, hlast, hrequests, hend⟩ :=
    hreplays.again hfirst (Keeps.refl settings.cacheDir after.files) hreplaying
  refine ⟨last, hlast, hrequests, fun place => ?_⟩
  rcases hend.cases_node place with hsame | ⟨-, hsame⟩
  · exact hsame
  · exact hsame

/-- The service that answered the first run is gone when the second one comes. -/
theorem second_run_replays_repeating : ∃ after last,
    Ends (run repeatingSettings ⟨false⟩) repeatingWorld (.ok repeatedPaths) after ∧
      Cache.key repeatingSettings.url ≠ "" ∧
        Ends (run repeatingSettings ⟨false⟩)
          { files := after.files, server := fun _ _ => .failed .connectError "" }
          (.ok repeatedPaths) last ∧
        last.requests = [] ∧ ∀ place, last.files.node? place = after.files.node? place := by
  obtain ⟨after, hends⟩ := ends_run_repeating
  have hkey : Cache.key repeatingSettings.url ≠ "" := by decide
  obtain ⟨last, hlast, hrequests, hsame⟩ :=
    second_run_replays_first repeatingSettings ⟨false⟩ ⟨false⟩ repeatingWorld after
      { files := after.files, server := fun _ _ => .failed .connectError "" } repeatedPaths hends
      (fun hempty => absurd hempty hkey) rfl
  exact ⟨after, last, hends, hkey, hlast, hrequests, hsame⟩

/-- A world in which the file of a class holds a listing with a single entry. -/
def overwrittenWorld : World where
  files := ⟨[], OrderedMap.empty.put ["Root.ts"]
    (.file "\x7b\"apis\":[\x7b\"path\":\":\"\x7d]\x7d".toUTF8)⟩
  server := fun _ _ => .failed .connectError ""

/-- Settings that lead to that file as soon as the directory of the interfaces is there; the key
of the listing is empty. -/
def overwritingSettings : Settings where
  url := ":"
  dest := ⟨.here, []⟩
  splitInterfaces := true
  cacheDir := ⟨.here, ["interfaces", "..", "Root.ts"]⟩

def overwritingPaths : List Path := [⟨.here, ["Api.ts"]⟩, ⟨.here, ["Root.ts"]⟩]

set_option maxRecDepth 10000 in
/-- The first run replaces its listing by a class, so that the second one cannot read it. -/
theorem second_run_fails_on_overwritten_listing :
    overwrittenWorld.files.isFile overwritingSettings.cacheDir = .ok false ∧ ∃ after,
      Ends (run overwritingSettings ⟨false⟩) overwrittenWorld (.ok overwritingPaths) after ∧
        ∃ failure last, Ends (run overwritingSettings ⟨false⟩) after (.error failure) last := by
  refine ⟨by cbv, _, Prod.ext ?_ rfl, ?_⟩
  · rw [run, runWith, prepare, writeBase_eq]
    generalize baseText = text
    cbv
  · refine ⟨.document ":" (.unreadable (.malformed .value ⟨0, 1, 1⟩)), _, Prod.ext ?_ rfl⟩
    rw [run, runWith, prepare, writeBase_eq]
    generalize baseText = text
    cbv

end ApiClientGen.CacheReplay
