import ApiClientGen.Generate.Service
import ApiClientGen.Proofs.Answers
import ApiClientGen.Proofs.FilePlaces
import ApiClientGen.Proofs.RunOutcome
import Mathlib

/-!
What a run keeps of the documents in its cache. A document is fetched only when none is kept for
its URL; after that its bytes are kept and are never changed again, neither by another document
nor by a generated file.
-/
namespace ApiClientGen.KeptDocuments

open Answers FilePlaces FileTree Generate Run RunEffect

variable {world after : World} {cache path : Path} {client : Web.Client} {url text : String}
  {body : ByteArray}

/-- A tree grows into another one in which every kept document is what it was. -/
structure Keeps (cache : Path) (before after : FileTree) : Prop where
  grows : Grows Set.univ before after
  read_eq : ∀ url body, Cache.key url ≠ "" → before.read (Cache.pathFor cache url) = .ok body →
    after.read (Cache.pathFor cache url) = .ok body

section Keeps

variable {before between after : FileTree} {written : Set FilePlace}

theorem Keeps.refl (cache : Path) (tree : FileTree) : Keeps cache tree tree :=
  ⟨Grows.refl Set.univ tree, fun _ _ _ hread => hread⟩

theorem Keeps.trans (h : Keeps cache before between) (hnext : Keeps cache between after) :
    Keeps cache before after := by
  refine ⟨h.grows.trans hnext.grows, ?_⟩
  intro url body hkey hread
  exact hnext.read_eq url body hkey (h.read_eq url body hkey hread)

theorem keeps_of_grows (h : Grows written before after)
    (hplaces : ∀ url body, Cache.key url ≠ "" →
      before.read (Cache.pathFor cache url) = .ok body →
        before.placeOf (Cache.pathFor cache url) ∉ written) :
    Keeps cache before after := by
  refine ⟨h.mono (Set.subset_univ written), ?_⟩
  intro url body hkey hread
  obtain ⟨hresolve, hnode⟩ := read_eq_ok_iff.mp hread
  rw [read_eq_ok_iff, h.placeOf_eq]
  exact ⟨h.resolve hresolve, h.keeps_file (hplaces url body hkey hread) hnode⟩

theorem keeps_of_grows_empty (h : Grows ∅ before after) : Keeps cache before after :=
  keeps_of_grows h fun _ _ _ _ => Set.notMem_empty _

theorem keeps_of_isOutput (hpath : IsOutput path) (h : Grows {before.placeOf path} before after) :
    Keeps cache before after := by
  apply keeps_of_grows h
  intro url body hkey _ hmem
  have hplace := outputPlace_placeOf before hpath
  rw [← Set.mem_singleton_iff.mp hmem] at hplace
  exact not_outputPlace_pathFor before cache hkey hplace

/-- A document that was not kept yet takes the place of no other one. -/
theorem keeps_of_isFile_eq_false (hkey : Cache.key url ≠ "")
    (hnone : before.isFile (Cache.pathFor cache url) = .ok false)
    (h : Grows {before.placeOf (Cache.pathFor cache url)} before after) :
    Keeps cache before after := by
  apply keeps_of_grows h
  intro other body hother hread hmem
  by_cases hkeys : Cache.key other = Cache.key url
  · have hpath : Cache.pathFor cache other = Cache.pathFor cache url := by
      rw [Cache.pathFor, Cache.pathFor, hkeys]
    rw [hpath] at hread
    rw [isFile_of_read hread] at hnone
    cases hnone
  · exact placeOf_pathFor_ne before cache hkey hkeys (Set.mem_singleton_iff.mp hmem)

end Keeps

theorem ends_read_iff {found : Option ByteArray} :
    Ends (Cache.read cache url) world (.ok found) after ↔ after = world ∧
      match found with
      | some body => world.files.read (Cache.pathFor cache url) = .ok body
      | none => world.files.isFile (Cache.pathFor cache url) = .ok false := by
  rw [Cache.read, ends_bind_ok_iff]
  simp only [ends_look_ok_iff]
  constructor
  · rintro ⟨isFile, _, ⟨hfile, rfl⟩, hrest⟩
    cases isFile with
    | true =>
      rw [if_pos rfl, ends_bind_ok_iff] at hrest
      obtain ⟨body, last, hread, hrest⟩ := hrest
      obtain ⟨hread, rfl⟩ := ends_look_ok_iff.mp hread
      obtain ⟨heq, rfl⟩ := ends_pure_iff.mp hrest
      cases heq
      exact ⟨rfl, hread⟩
    | false =>
      rw [if_neg Bool.false_ne_true, ends_pure_iff] at hrest
      obtain ⟨heq, rfl⟩ := hrest
      cases heq
      exact ⟨rfl, hfile⟩
  · rintro ⟨rfl, hfound⟩
    cases found with
    | some body =>
      refine ⟨true, _, ⟨isFile_of_read hfound, rfl⟩, ?_⟩
      rw [if_pos rfl, ends_bind_ok_iff]
      exact ⟨body, _, ends_look_ok_iff.mpr ⟨hfound, rfl⟩, ends_pure_iff.mpr ⟨rfl, rfl⟩⟩
    | none =>
      refine ⟨false, _, ⟨hfound, rfl⟩, ?_⟩
      rw [if_neg Bool.false_ne_true, ends_pure_iff]
      exact ⟨rfl, rfl⟩

theorem leaves_read (cache : Path) (url : String) : Leaves (Acts ∅) (Cache.read cache url) := by
  have hR := lasting_acts ∅
  refine (leaves_look hR _).bind hR fun isFile => ?_
  cases isFile with
  | true => exact (leaves_look hR _).bind hR fun body => leaves_pure hR _
  | false => exact leaves_pure hR _

/-- A document can be kept only under a key that is not empty: under an empty one it would lie
where its directory is. -/
theorem ends_write_ok (h : Ends (Cache.write cache url body) world (.ok path) after) :
    Cache.key url ≠ "" ∧ Acts {world.files.placeOf (Cache.pathFor cache url)} world after ∧
      after.files.read (Cache.pathFor cache url) = .ok body ∧
        after.files.isDirectory cache = .ok true := by
  rw [Cache.write, ends_bind_ok_iff] at h
  obtain ⟨_, made, hmade, hrest⟩ := h
  have hmaking : Acts ∅ world made := leaves_ensureDirectories cache hmade
  obtain ⟨directories, hmake, rfl⟩ := ends_ensureDirectories_ok_iff.mp hmade
  obtain ⟨_, last, hwritten, hrest⟩ := ends_bind_ok_iff.mp hrest
  have hwriting := hmaking.trans_at (acts_of_writeFile hwritten)
  obtain ⟨changed, hwrite, rfl⟩ := ends_writeFile_ok_iff.mp hwritten
  obtain ⟨-, rfl⟩ := ends_pure_iff.mp hrest
  have hcache := (grows_of_ensureDirectories hmake).2
  obtain ⟨hgrows, hread⟩ := grows_of_write hwrite
  refine ⟨?_, hwriting, hread, hgrows.isDirectory hcache⟩
  intro hkey
  rw [pathFor_of_key_eq_empty cache hkey] at hwrite
  exact (write_eq_ok_iff.mp hwrite).2.1 (isDirectory_eq_true_iff.mp hcache).2

/-- A document that cannot be kept leaves at most its directory behind. -/
theorem acts_of_write_error {failure : Failure}
    (h : Ends (Cache.write cache url body) world (.error failure) after) :
    Acts ∅ world after := by
  rcases ends_bind_iff.mp h with ⟨failure, hfails, -⟩ | ⟨_, made, hmade, hrest⟩
  · exact leaves_ensureDirectories cache hfails
  · rcases ends_bind_iff.mp hrest with ⟨failure, hfails, -⟩ | ⟨_, last, -, hrest⟩
    · rw [eq_of_writeFile_error hfails]
      exact leaves_ensureDirectories cache hmade
    · cases (ends_pure_iff.mp hrest).1

/-- Whether a document can be read does not depend on its URL. -/
theorem readDocument_eq_ok_iff {value : Json} :
    Fetch.readDocument url body = .ok value ↔ Json.ofBytes body = .ok value := by
  rw [Fetch.readDocument]
  cases Json.ofBytes body <;> simp [Except.mapError]

/-- A document that was not kept is requested, read and kept. -/
structure Stored (cache : Path) (client : Web.Client) (url : String) (body : ByteArray)
    (before after : World) : Prop where
  missing : before.files.isFile (Cache.pathFor cache url) = .ok false
  key_ne : Cache.key url ≠ ""
  acts : Acts {before.files.placeOf (Cache.pathFor cache url)} before after
  read_eq : after.files.read (Cache.pathFor cache url) = .ok body
  directory : after.files.isDirectory cache = .ok true
  obtained : Obtained after client url body
  readable : ∃ value, Json.ofBytes body = .ok value

/-- A request that precedes the keeping of a document is part of it. -/
theorem stored_of_write {asked : World} {value : Json}
    (hnone : world.files.isFile (Cache.pathFor cache url) = .ok false)
    (hasked : Acts ∅ world asked) (hobtained : Obtained asked client url body)
    (hvalue : Fetch.readDocument url body = .ok value)
    (h : Ends (Cache.write cache url body) asked (.ok path) after) :
    Stored cache client url body world after := by
  obtain ⟨hkey, hacts, hread, hdirectory⟩ := ends_write_ok h
  exact ⟨hnone, hkey, hasked.trans_at hacts, hread, hdirectory, hobtained.later hacts,
    value, readDocument_eq_ok_iff.mp hvalue⟩

/-- Fetching a document fails and leaves every file alone, or gives the value of a document that
was kept already, or that of one that is kept from now on. -/
theorem ends_json_cases {outcome : Except Failure Json}
    (h : Ends (Fetch.json cache client url) world outcome after) :
    (∃ failure, outcome = .error failure ∧ Acts ∅ world after) ∨
      ∃ value body, outcome = .ok value ∧ Fetch.readDocument url body = .ok value ∧
        (after = world ∧ world.files.read (Cache.pathFor cache url) = .ok body ∨
          Stored cache client url body world after) := by
  have hR := lasting_acts ∅
  rcases ends_bind_iff.mp h with ⟨failure, hfails, rfl⟩ | ⟨found, between, hfound, hrest⟩
  · exact Or.inl ⟨failure, rfl, leaves_read cache url hfails⟩
  cases found with
  | some body =>
    obtain ⟨rfl, hread⟩ := ends_read_iff.mp hfound
    obtain ⟨rfl, rfl⟩ := ends_ofExcept_iff.mp hrest
    cases hvalue : Fetch.readDocument url body with
    | error failure => exact Or.inl ⟨failure, rfl, hR.refl after⟩
    | ok value => exact Or.inr ⟨value, body, rfl, hvalue, Or.inl ⟨rfl, hread⟩⟩
  | none =>
    obtain ⟨rfl, hnone⟩ := ends_read_iff.mp hfound
    rw [ends_bind_iff] at hrest
    obtain ⟨failure, hfails, -⟩ | ⟨_, printed, hprint, hask⟩ := hrest
    · cases (ends_printLine_iff.mp hfails).1
    have hprinted : Acts ∅ between printed := leaves_printLine hR _ hprint
    obtain ⟨failure, hfails, rfl⟩ | ⟨body, asked, hbody, hread⟩ := ends_bind_iff.mp hask
    · exact Or.inl ⟨failure, rfl, hR.trans hprinted (leaves_getBody client url hfails)⟩
    have hasked : Acts ∅ between asked := hR.trans hprinted (leaves_getBody client url hbody)
    obtain ⟨failure, hfails, rfl⟩ | ⟨value, read, hends, hkeep⟩ := ends_bind_iff.mp hread
    · exact Or.inl ⟨failure, rfl, hR.trans hasked (leaves_ofExcept hR id _ hfails)⟩
    obtain ⟨hvalue, rfl⟩ := ends_ofExcept_ok_iff.mp hends
    obtain ⟨failure, hfails, rfl⟩ | ⟨path, last, hwrite, hend⟩ := ends_bind_iff.mp hkeep
    · exact Or.inl ⟨failure, rfl, hR.trans hasked (acts_of_write_error hfails)⟩
    obtain ⟨rfl, rfl⟩ := ends_pure_iff.mp hend
    exact Or.inr ⟨value, body, rfl, hvalue,
      Or.inr (stored_of_write hnone hasked (obtained_of_getBody hbody) hvalue hwrite)⟩

/-- A relation between worlds holds across fetching a document if it does where nothing is written
and where the document is kept. -/
theorem leaves_json_of {R : World → World → Prop} (hR : Lasting R)
    (hacts : ∀ {before last}, Acts ∅ before last → R before last)
    (hstored : ∀ {body before last}, Stored cache client url body before last → R before last) :
    Leaves R (Fetch.json cache client url) := by
  intro world outcome after hends
  rcases ends_json_cases hends with ⟨_, -, hnothing⟩ | ⟨_, _, -, -, ⟨rfl, -⟩ | hkept⟩
  · exact hacts hnothing
  · exact hR.refl after
  · exact hstored hkept

theorem leaves_json (cache : Path) (client : Web.Client) (url : String) :
    Leaves (Acts Set.univ) (Fetch.json cache client url) :=
  leaves_json_of (lasting_acts _) (fun h => h.mono (Set.empty_subset _))
    fun h => h.acts.mono (Set.subset_univ _)

/-- A document that was fetched is kept from then on: it was kept already and nothing happened, or
it was requested and is kept now. -/
theorem ends_json_ok {value : Json}
    (h : Ends (Fetch.json cache client url) world (.ok value) after) :
    (∃ body, Fetch.readDocument url body = .ok value ∧
      after.files.read (Cache.pathFor cache url) = .ok body) ∧
    (after = world ∨ Cache.key url ≠ "" ∧
      world.files.isFile (Cache.pathFor cache url) = .ok false ∧
        Grows {world.files.placeOf (Cache.pathFor cache url)} world.files after.files) := by
  rcases ends_json_cases h with ⟨failure, heq, -⟩ | ⟨_, body, heq, hvalue, ⟨rfl, hread⟩ | hstored⟩
  · cases heq
  · cases heq
    exact ⟨⟨body, hvalue, hread⟩, Or.inl rfl⟩
  · cases heq
    exact ⟨⟨body, hvalue, hstored.read_eq⟩,
      Or.inr ⟨hstored.key_ne, hstored.missing, hstored.acts.grows⟩⟩

/-- A document that is kept is not requested. -/
theorem ends_json_of_read {value : Json}
    (hread : world.files.read (Cache.pathFor cache url) = .ok body)
    (hvalue : Fetch.readDocument url body = .ok value) :
    Ends (Fetch.json cache client url) world (.ok value) world := by
  rw [Fetch.json, ends_bind_ok_iff]
  exact ⟨some body, world, ends_read_iff.mpr ⟨rfl, hread⟩,
    ends_ofExcept_ok_iff.mpr ⟨hvalue, rfl⟩⟩

theorem keeps_of_ends_json {value : Json}
    (h : Ends (Fetch.json cache client url) world (.ok value) after) :
    Keeps cache world.files after.files := by
  obtain ⟨-, rfl | ⟨hkey, hnone, hgrows⟩⟩ := ends_json_ok h
  · exact Keeps.refl cache after.files
  · exact keeps_of_isFile_eq_false hkey hnone hgrows

theorem ends_listing_ok {root : String} {listing : Listing}
    (h : Ends (Fetch.listing cache client root) world (.ok listing) after) :
    ∃ value, Ends (Fetch.json cache client root) world (.ok value) after ∧
      Fetch.readRecord root (Schema.readListing value) = .ok listing := by
  rw [Fetch.listing, ends_bind_ok_iff] at h
  obtain ⟨value, fetched, hjson, hshape⟩ := h
  obtain ⟨hread, rfl⟩ := ends_ofExcept_ok_iff.mp hshape
  exact ⟨value, hjson, hread⟩

theorem ends_resource_ok {root : String} {listing : Listing}
    {entry : ListingEntry} {found : Resource}
    (h : Ends (Fetch.resource cache client root listing entry) world (.ok found) after) :
    ∃ said value read, Ends (Fetch.json cache client (Fetch.entryUrl root listing entry))
        { world with stdout := said } (.ok value) after ∧
      Fetch.readRecord (Fetch.entryUrl root listing entry) (Schema.readResource value) =
        .ok read ∧
      found = Fetch.withPath entry read := by
  rw [Fetch.resource, ends_bind_ok_iff] at h
  obtain ⟨_, printed, hprint, hrest⟩ := h
  simp only [ends_bind_ok_iff, ends_ofExcept_ok_iff, ends_pure_iff] at hrest
  obtain ⟨value, fetched, hjson, read, _, ⟨hread, rfl⟩, heq, rfl⟩ := hrest
  obtain ⟨-, rfl⟩ := ends_printLine_iff.mp hprint
  cases heq
  exact ⟨_, value, read, hjson, hread, rfl⟩

/-- The base class is written as any other text. -/
theorem writeBase_eq (dest : Path) :
    writeBase dest = writeText (dest.child baseFile) baseText := by
  have hparent : (dest.child baseFile).parent = dest := by
    rw [Path.child_of_isPart dest (by decide) (by decide), Path.parent, List.dropLast_concat]
  rw [writeBase, writeText, hparent]

theorem ends_writeText_ok {written : Path}
    (h : Ends (writeText path text) world (.ok written) after) :
    written = path ∧ Grows {world.files.placeOf path} world.files after.files ∧
      after.files.isDirectory path.parent = .ok true ∧
        after.files.read path = .ok text.toUTF8 := by
  rw [writeText, ends_bind_ok_iff] at h
  obtain ⟨_, made, hmade, hrest⟩ := h
  obtain ⟨directories, hmake, rfl⟩ := ends_ensureDirectories_ok_iff.mp hmade
  obtain ⟨_, last, hwritten, hrest⟩ := ends_bind_ok_iff.mp hrest
  obtain ⟨changed, hwrite, rfl⟩ := ends_writeFile_ok_iff.mp hwritten
  obtain ⟨heq, rfl⟩ := ends_pure_iff.mp hrest
  cases heq
  obtain ⟨hdirectories, hparent⟩ := grows_of_ensureDirectories hmake
  obtain ⟨hgrows, hread⟩ := grows_of_write hwrite
  have hstays := hgrows.isDirectory hparent
  rw [hdirectories.placeOf_eq] at hgrows
  exact ⟨rfl, (hdirectories.mono (Set.empty_subset _)).trans hgrows, hstays, hread⟩

theorem ends_writeText_of_write {changed : FileTree}
    (hparent : world.files.isDirectory path.parent = .ok true)
    (hwrite : world.files.write path text.toUTF8 = .ok changed) :
    Ends (writeText path text) world (.ok path) { world with files := changed } := by
  rw [writeText, ends_bind_ok_iff]
  refine ⟨(), world, ends_ensureDirectories_ok_iff.mpr ⟨world.files, ?_, rfl⟩, ?_⟩
  · exact ensureDirectories_of_isDirectory hparent
  · rw [ends_bind_ok_iff]
    exact ⟨(), _, ends_writeFile_ok_iff.mpr ⟨changed, hwrite, rfl⟩, ends_pure_iff.mpr ⟨rfl, rfl⟩⟩

/-- A service whose listing names one resource twice. -/
def repeating : Web.Server := fun _ url =>
  let listing := "\x7b\"apis\":[\x7b\"path\":\"/b\"\x7d,\x7b\"path\":\"/b\"\x7d]\x7d"
  let text := if url = "http://a" then listing else "\x7b\x7d"
  .response ⟨200, none, text.toUTF8⟩

def repeatingWorld : World where
  files := ⟨[], OrderedMap.empty⟩
  server := repeating

def repeatingSettings : Settings where
  url := "http://a"

def repeatedPaths : List Path :=
  [⟨.here, ["generated", "Api.ts"]⟩, ⟨.here, ["generated", "B.ts"]⟩,
    ⟨.here, ["generated", "B.ts"]⟩]

set_option maxRecDepth 10000 in
theorem ends_run_repeating :
    ∃ after, Ends (run repeatingSettings ⟨false⟩) repeatingWorld (.ok repeatedPaths) after := by
  refine ⟨_, Prod.ext ?_ rfl⟩
  rw [run, runWith, prepare, writeBase_eq]
  generalize baseText = text
  cbv

end ApiClientGen.KeptDocuments
