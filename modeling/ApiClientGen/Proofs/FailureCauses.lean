import ApiClientGen.Proofs.Warnings

/-!
Why the steps of a run fail. Writing fails as the file system refuses it, fetching also for what
the server answers and for what stands in the document; a path that no system call can name holds
a NUL in one of its parts. A failing step ends the run, so that its cause can be seen in the world
that the run leaves: the last request, its answer, and the documents that are kept.
-/
namespace ApiClientGen.FailureCauses

open Answers FileTree Generate KeptDocuments OutputFiles Run RunEffect

variable {α β : Type} {path : Path} {tree : FileTree} {text : String} {error : FileError}

section Nul

/-- One of the parts of a path holds a NUL. -/
def HasNul (path : Path) : Prop :=
  ∃ part ∈ path.parts, '\x00' ∈ part.toList

/-- A character of a joined text that is no separator is in one of the parts. -/
theorem exists_of_mem_intercalate {c : Char} {parts : List String} (hslash : c ≠ '/')
    (h : c ∈ (String.intercalate "/" parts).toList) : ∃ part ∈ parts, c ∈ part.toList := by
  induction parts with
  | nil => simp at h
  | cons part rest ih =>
    cases rest with
    | nil =>
      rw [String.intercalate_singleton] at h
      exact ⟨part, List.mem_singleton_self part, h⟩
    | cons second rest =>
      rw [String.intercalate_cons_of_ne_nil (List.cons_ne_nil second rest), String.toList_append,
        String.toList_append, List.mem_append, List.mem_append] at h
      rcases h with (h | h) | h
      · exact ⟨part, List.mem_cons_self .., h⟩
      · exact absurd (List.mem_singleton.mp h) hslash
      · obtain ⟨other, hmem, hc⟩ := ih h
        exact ⟨other, List.mem_cons_of_mem _ hmem, hc⟩

/-- Beside its parts the text of a path has slashes only, or the point of an empty path. -/
theorem hasNul_of_mem_text (h : '\x00' ∈ path.text.toList) : HasNul path := by
  have hparts : '\x00' ∈ (String.intercalate "/" path.parts).toList := by
    rw [Path.text] at h
    split at h
    · split at h
      · exact absurd h (by decide)
      · exact h
    · simpa using h
    · simpa using h
  exact exists_of_mem_intercalate (by decide) hparts

theorem hasNul_of_parent (h : HasNul path.parent) : HasNul path := by
  obtain ⟨part, hmem, hnul⟩ := h
  exact ⟨part, List.mem_of_mem_dropLast hmem, hnul⟩

theorem mem_of_mem_pieces {cut : Char → Bool} {text piece : List Char} {c : Char}
    (hpiece : piece ∈ Text.pieces cut text) (h : c ∈ piece) : c ∈ text := by
  induction text generalizing piece with
  | nil =>
    rw [Text.pieces, List.mem_singleton] at hpiece
    rw [hpiece] at h
    exact h
  | cons first rest ih =>
    rw [Text.pieces] at hpiece
    split at hpiece
    · rcases List.mem_cons.mp hpiece with rfl | hmem
      · cases h
      · exact List.mem_cons_of_mem _ (ih hmem h)
    · cases hpieces : Text.pieces cut rest with
      | nil => exact absurd hpieces (Text.pieces_ne_nil cut rest)
      | cons head tail =>
        rw [hpieces] at hpiece ih
        rcases List.mem_cons.mp hpiece with rfl | hmem
        · rcases List.mem_cons.mp h with rfl | hhead
          · exact List.mem_cons_self ..
          · exact List.mem_cons_of_mem _ (ih (List.mem_cons_self ..) hhead)
        · exact List.mem_cons_of_mem _ (ih (List.mem_cons_of_mem _ hmem) h)

theorem nul_mem_of_hasNul_ofString (h : HasNul (Path.ofString text)) : '\x00' ∈ text.toList := by
  obtain ⟨part, hmem, hnul⟩ := h
  rw [Path.ofString, Path.partsOf, List.mem_map] at hmem
  obtain ⟨piece, hpiece, rfl⟩ := hmem
  rw [String.toList_ofList] at hnul
  exact mem_of_mem_pieces (List.mem_of_mem_filter hpiece) hnul

/-- A NUL of a path below another one is in that one or in the text that was added. -/
theorem hasNul_of_child (h : HasNul (path.child text)) : HasNul path ∨ '\x00' ∈ text.toList := by
  rw [Path.child, Path.join] at h
  split at h
  · obtain ⟨part, hmem, hnul⟩ := h
    rcases List.mem_append.mp hmem with hmem | hmem
    · exact Or.inl ⟨part, hmem, hnul⟩
    · exact Or.inr (nul_mem_of_hasNul_ofString ⟨part, hmem, hnul⟩)
  · exact Or.inr (nul_mem_of_hasNul_ofString h)

end Nul

section Tree

/-- Only a path with a NUL cannot be named to the system. -/
theorem hasNul_of_resolve (h : tree.resolve path = .error .embeddedNul) : HasNul path := by
  rw [resolve] at h
  split at h
  · rename_i hnul
    exact hasNul_of_mem_text hnul
  · split at h
    · cases h
    · cases hwalk : tree.walk (tree.start path) path.parts with
      | ok place =>
        rw [hwalk] at h
        cases h
      | error fault =>
        rw [hwalk] at h
        cases h

theorem hasNul_of_resolve_bind {next : FilePlace → Except FileError α}
    (hnext : ∀ place, next place ≠ .error .embeddedNul)
    (h : tree.resolve path >>= next = .error .embeddedNul) : HasNul path := by
  cases hresolve : tree.resolve path with
  | error error =>
    rw [hresolve] at h
    cases h
    exact hasNul_of_resolve hresolve
  | ok place =>
    rw [hresolve] at h
    exact absurd h (hnext place)

theorem hasNul_of_write {content : ByteArray}
    (h : tree.write path content = .error .embeddedNul) : HasNul path := by
  refine hasNul_of_resolve_bind (fun place hplace => ?_) h
  split at hplace <;> cases hplace

theorem hasNul_of_makeDirectory (h : tree.makeDirectory path = .error .embeddedNul) :
    HasNul path := by
  refine hasNul_of_resolve_bind (fun place hplace => ?_) h
  split at hplace <;> cases hplace

/-- Looking at a path that cannot be named finds nothing. -/
theorem look_ne_embeddedNul : tree.look path ≠ .error .embeddedNul := by
  rw [FileTree.look]
  split <;> simp

theorem map_look_ne_embeddedNul (see : Option Node → Bool) :
    (tree.look path).map see ≠ .error .embeddedNul := by
  intro h
  cases hlook : tree.look path with
  | ok node =>
    rw [hlook] at h
    cases h
  | error error =>
    rw [hlook] at h
    cases h
    exact look_ne_embeddedNul hlook

theorem eq_of_accept (h : (tree.accept path error).1 = .error .embeddedNul) :
    error = .embeddedNul := by
  unfold accept at h
  split at h
  · rfl
  · cases h
  · split at h
    · cases h
    · exact Except.error.inj h
    · rename_i hdir
      cases h
      exact absurd hdir (map_look_ne_embeddedNul _)

theorem hasNul_of_ensureDirectory (h : (tree.ensureDirectory path).1 = .error .embeddedNul) :
    HasNul path := by
  rw [ensureDirectory] at h
  split at h
  · cases h
  · rename_i hmake
    rw [eq_of_accept h] at hmake
    exact hasNul_of_makeDirectory hmake

/-- The paths above a directory have no parts but those of its own path, so a NUL that one of them
fails for is in that path. -/
theorem hasNul_of_ensureUpTo {depth : Nat}
    (h : (tree.ensureUpTo depth path).1 = .error .embeddedNul) : HasNul path := by
  induction depth generalizing path with
  | zero => exact hasNul_of_ensureDirectory h
  | succ depth ih =>
    rw [ensureUpTo] at h
    split at h
    · split at h
      · exact hasNul_of_ensureDirectory h
      · exact hasNul_of_parent (ih h)
    · exact hasNul_of_ensureDirectory h

end Tree

/-- However a computation fails, it does so in a way of some kind, as the world that it leaves
shows. -/
def FailsOnly (kind : World → Failure → Prop) (action : Run α) : Prop :=
  ∀ ⦃world : World⦄ ⦃failure : Failure⦄ ⦃after : World⦄,
    Ends action world (.error failure) after → kind after failure

section FailsOnly

variable {kind wider : World → Failure → Prop}

theorem FailsOnly.mono {action : Run α} (h : FailsOnly kind action)
    (hsub : ∀ {after failure}, kind after failure → wider after failure) :
    FailsOnly wider action :=
  fun _ _ _ hends => hsub (h hends)

theorem failsOnly_pure (value : α) : FailsOnly kind (pure value : Run α) := by
  intro world failure after hends
  cases (ends_pure_iff.mp hends).1

theorem failsOnly_throw {failure : Failure} (h : ∀ after, kind after failure) :
    FailsOnly kind (throw failure : Run α) := by
  intro world thrown after hends
  cases (ends_throw_iff.mp hends).1
  exact h after

theorem failsOnly_ofExcept {ε : Type} {failure : ε → Failure} {result : Except ε α}
    (h : ∀ after error, result = .error error → kind after (failure error)) :
    FailsOnly kind (ofExcept failure result) := by
  cases result with
  | ok value => exact failsOnly_pure value
  | error error => exact failsOnly_throw fun after => h after error rfl

/-- A look at the files fails with an error of the files only. -/
theorem failsOnly_look {see : FileTree → Except FileError α}
    (h : ∀ after tree error, see tree = .error error → kind after (.file error)) :
    FailsOnly kind (Run.look see) := by
  intro world failure after hends
  exact failsOnly_ofExcept (fun after => h after world.files) (ends_look_iff.mp hends)

theorem failsOnly_printLine (line : String) : FailsOnly kind (printLine line) := by
  intro world failure after hends
  cases (ends_printLine_iff.mp hends).1

/-- Nothing is done behind a step that fails, so that what it leaves is what all leaves. -/
theorem FailsOnly.bind {action : Run α} {next : α → Run β} (h : FailsOnly kind action)
    (hnext : ∀ value, FailsOnly kind (next value)) : FailsOnly kind (action >>= next) := by
  intro world failure after hends
  rcases ends_bind_iff.mp hends with ⟨_, hfails, heq⟩ | ⟨first, between, -, hrest⟩
  · cases heq
    exact h hfails
  · exact hnext first hrest

end FailsOnly

/-- The system refuses an operation, and if a path could not even be named, `nul` holds. -/
def Refused (nul : Prop) (failure : Failure) : Prop :=
  ∃ error, failure = .file error ∧ (error = .embeddedNul → nul)

section Writing

variable {settings : Settings} {nul more : Prop}

theorem Refused.mono {failure : Failure} (h : Refused nul failure) (hsub : nul → more) :
    Refused more failure := by
  obtain ⟨error, rfl, hnul⟩ := h
  exact ⟨error, rfl, fun heq => hsub (hnul heq)⟩

/-- The system may refuse to make a directory; it does so for a NUL only if one is in the path. -/
theorem failsOnly_ensureDirectories (path : Path) :
    FailsOnly (fun _ => Refused (HasNul path)) (ensureDirectories path) := by
  intro world failure after hends
  have hrefused : FailsOnly (fun _ => Refused (HasNul path))
      (ofExcept .file (world.files.ensureDirectories path).1) := by
    apply failsOnly_ofExcept
    intro _ error herror
    refine ⟨error, rfl, ?_⟩
    rintro rfl
    exact hasNul_of_ensureUpTo herror
  exact hrefused (ends_ensureDirectories_iff.mp hends)

theorem failsOnly_writeFile (path : Path) (content : ByteArray) :
    FailsOnly (fun _ => Refused (HasNul path)) (writeFile path content) := by
  have hwrite : FailsOnly (fun _ => Refused (HasNul path)) (Run.look (·.write path content)) := by
    apply failsOnly_look
    intro _ tree error herror
    refine ⟨error, rfl, ?_⟩
    rintro rfl
    exact hasNul_of_write herror
  refine hwrite.bind fun changed => ?_
  intro world failure after hends
  cases (ends_modify_iff.mp hends).1

/-- The system may refuse to write a text; it does so for a NUL only if one is in the path. -/
theorem failsOnly_writeText (path : Path) (text : String) :
    FailsOnly (fun _ => Refused (HasNul path)) (writeText path text) := by
  have hmake := (failsOnly_ensureDirectories path.parent).mono fun h => h.mono hasNul_of_parent
  refine hmake.bind fun _ => ?_
  exact (failsOnly_writeFile path text.toUTF8).bind fun _ => failsOnly_pure _

theorem failsOnly_writeDrafts (list : List Draft) :
    FailsOnly (fun _ => Refused (∃ draft ∈ list, HasNul draft.1)) (writeDrafts list) := by
  induction list with
  | nil => exact failsOnly_pure _
  | cons draft rest ih =>
    have hfirst := (failsOnly_writeText draft.1 draft.2).mono fun h =>
      h.mono fun hnul => (⟨draft, List.mem_cons_self .., hnul⟩ :
        ∃ other ∈ draft :: rest, HasNul other.1)
    have hrest := ih.mono fun h => h.mono fun ⟨other, hmem, hnul⟩ =>
      (⟨other, List.mem_cons_of_mem _ hmem, hnul⟩ : ∃ other ∈ draft :: rest, HasNul other.1)
    exact hfirst.bind fun _ => hrest.bind fun _ => failsOnly_pure _

/-- The directory of interfaces and the base class have names without a NUL. -/
theorem failsOnly_prepare (settings : Settings) :
    FailsOnly (fun _ => Refused (HasNul settings.dest)) (prepare settings) := by
  have hchild {text : String} (htext : '\x00' ∉ text.toList)
      (h : HasNul (settings.dest.child text)) : HasNul settings.dest :=
    (hasNul_of_child h).resolve_right htext
  have hbase : FailsOnly (fun _ => Refused (HasNul settings.dest)) (writeBase settings.dest) := by
    rw [writeBase_eq]
    exact (failsOnly_writeText _ _).mono fun h => h.mono (hchild (by decide))
  have hinterfaces : FailsOnly (fun _ => Refused (HasNul settings.dest))
      (ensureDirectories (interfacesDir settings)) :=
    (failsOnly_ensureDirectories _).mono fun h => h.mono (hchild (by decide))
  refine (failsOnly_ensureDirectories settings.dest).bind fun _ => ?_
  dsimp only
  split
  · exact hinterfaces.bind fun _ => hbase
  · exact hbase

/-- A strict check of a class finds references that dangle. -/
def CheckFails (settings : Settings) (name : String) (resource : Resource) (failure : Failure) :
    Prop :=
  settings.strictRefs = true ∧ resource.danglingReferences ≠ [] ∧
    failure = .dangling name resource.danglingReferences

variable {name : String} {resource : Resource} {resources : List Resource} {failure : Failure}
  {world after : World}

/-- What a check of references finds is reported. -/
theorem CheckFails.isReported (h : CheckFails settings name resource failure) :
    failure.isReported = true := by
  obtain ⟨-, -, rfl⟩ := h
  rfl

/-- A class fails its check before anything is done for it, or the system refuses its file. -/
theorem ends_writeClass_error
    (h : Ends (writeClass settings name resource) world (.error failure) after) :
    CheckFails settings name resource failure ∧ after = world ∨
      Refused (HasNul (settings.dest.child (name ++ ".ts"))) failure := by
  rcases ends_bind_iff.mp h with ⟨_, hfails, heq⟩ | ⟨missing, checked, -, hdrafts⟩
  · cases heq
    obtain ⟨hstrict, hmissing, rfl, rfl⟩ := Warnings.ends_checkReferences_error_iff.mp hfails
    exact Or.inl ⟨⟨hstrict, hmissing, rfl⟩, rfl⟩
  · refine Or.inr ((failsOnly_writeDrafts _ hdrafts).mono ?_)
    rintro ⟨draft, hmem, hnul⟩
    rw [List.mem_singleton.mp hmem, classDraft_fst] at hnul
    exact hnul

theorem ends_writeClass_of_checkFails (h : CheckFails settings name resource failure)
    (world : World) : Ends (writeClass settings name resource) world (.error failure) world := by
  obtain ⟨hstrict, hmissing, rfl⟩ := h
  exact (Warnings.ends_checkReferences_error_iff.mpr ⟨hstrict, hmissing, rfl, rfl⟩).bind_error

/-- What a resource gives is refused by the check of its class, before anything is done for it, or
by the system. -/
theorem ends_writeResource_error
    (h : Ends (writeResource settings resource) world (.error failure) after) :
    settings.groupClass = "" ∧ CheckFails settings (Naming.className resource) resource failure ∧
        after = world ∨
      Refused (∃ draft ∈ resourceDrafts settings resource, HasNul draft.1) failure := by
  rcases ends_bind_iff.mp h with ⟨_, hclass, heq⟩ | ⟨ofClass, classed, -, hrest⟩
  · cases heq
    rw [writeOwnClass] at hclass
    split at hclass
    · rename_i hgroup
      rcases ends_writeClass_error hclass with ⟨hcheck, rfl⟩ | hrefused
      · exact Or.inl ⟨hgroup, hcheck, rfl⟩
      · refine Or.inr (hrefused.mono fun hnul => ?_)
        refine ⟨classDraft settings (Naming.className resource) resource, ?_, ?_⟩
        · rw [resourceDrafts, ownDrafts, if_pos hgroup]
          exact List.mem_cons_self ..
        · rwa [classDraft_fst]
    · cases (ends_pure_iff.mp hclass).1
  · rcases ends_bind_iff.mp hrest with ⟨_, hinterfaces, heq⟩ | ⟨_, _, -, hrest⟩
    · cases heq
      rw [writeInterfaces] at hinterfaces
      split at hinterfaces
      · rename_i hsplit
        refine Or.inr ((failsOnly_writeDrafts _ hinterfaces).mono ?_)
        rintro ⟨draft, hmem, hnul⟩
        refine ⟨draft, ?_, hnul⟩
        rw [resourceDrafts, splitDrafts, if_pos hsplit]
        exact List.mem_append_right _ hmem
      · cases (ends_pure_iff.mp hinterfaces).1
    · cases (ends_pure_iff.mp hrest).1

/-- The class of all resources has nothing to be made of, or is refused as any other class. -/
theorem ends_writeGroup_error
    (h : Ends (writeGroup settings resources) world (.error failure) after) :
    settings.groupClass ≠ "" ∧ (failure = .nothingToMerge ∨
      ∃ merged, Resource.merge? resources = some merged ∧
        (CheckFails settings settings.groupClass merged failure ∧ after = world ∨
          Refused (HasNul (settings.dest.child (settings.groupClass ++ ".ts"))) failure)) := by
  rw [writeGroup] at h
  split at h
  · cases (ends_pure_iff.mp h).1
  · rename_i hgroup
    refine ⟨hgroup, ?_⟩
    cases hmerge : Resource.merge? resources with
    | none =>
      rw [hmerge] at h
      cases (ends_throw_iff.mp h).1
      exact Or.inl rfl
    | some merged =>
      rw [hmerge] at h
      exact Or.inr ⟨merged, rfl, ends_writeClass_error h⟩

end Writing

section Fetching

variable {cache : Path} {url root : String} {client : Web.Client} {world after : World}

/-- A text with a NUL is no URL. -/
theorem nul_not_mem_of_url {target : Web.Url} (h : Web.Url.ofString url = .ok target) :
    '\x00' ∉ url.toList := by
  intro hmem
  have hlt :
      url.toList.findIdx (fun c => c.toNat < 0x20 || c.toNat == 0x7F) < url.toList.length :=
    List.findIdx_lt_length_of_exists ⟨_, hmem, by decide⟩
  have hread : ∀ found, Web.Url.read url.toList ≠ .ok found := by
    intro found hfound
    rw [Web.Url.read, Web.Url.control?, List.getElem?_eq_getElem hlt] at hfound
    split at hfound <;> cases hfound
  rw [Web.Url.ofString] at h
  cases hfound : Web.Url.read url.toList with
  | error fault =>
    rw [hfound] at h
    cases h
  | ok found => exact hread found hfound

/-- Keeping a document is refused where the cache lies or for what stands in the URL. -/
theorem failsOnly_keep (cache : Path) (url : String) (body : ByteArray) :
    FailsOnly (fun _ => Refused (HasNul cache ∨ '\x00' ∈ url.toList))
      (Cache.write cache url body) := by
  have hpath (h : HasNul (Cache.pathFor cache url)) : HasNul cache ∨ '\x00' ∈ url.toList := by
    refine (hasNul_of_child h).imp_right fun hkey => ?_
    rw [Cache.key, String.toList_ofList] at hkey
    exact List.mem_of_mem_filter hkey
  have hmake := (failsOnly_ensureDirectories cache).mono fun h =>
    h.mono (Or.inl : HasNul cache → HasNul cache ∨ '\x00' ∈ url.toList)
  refine hmake.bind fun _ => ?_
  have hwrite := (failsOnly_writeFile (Cache.pathFor cache url) body).mono fun h => h.mono hpath
  exact hwrite.bind fun _ => failsOnly_pure _

/-- A document that is looked up where no system call can look is not there. -/
theorem failsOnly_lookUp (cache : Path) (url : String) :
    FailsOnly (fun _ => Refused False) (Cache.read cache url) := by
  have hlookUp : FailsOnly (fun _ => Refused False)
      (Run.look (·.isFile (Cache.pathFor cache url))) := by
    apply failsOnly_look
    intro _ tree error herror
    refine ⟨error, rfl, ?_⟩
    rintro rfl
    exact map_look_ne_embeddedNul _ herror
  intro world failure after hends
  rcases ends_bind_iff.mp hends with ⟨_, hlook, heq⟩ | ⟨isFile, between, hlook, hrest⟩
  · cases heq
    exact hlookUp hlook
  · obtain ⟨hfile, rfl⟩ := ends_look_ok_iff.mp hlook
    cases isFile with
    | false => cases (ends_pure_iff.mp hrest).1
    | true =>
      obtain ⟨hresolve, content, hnode⟩ := isFile_eq_true_iff.mp hfile
      have hread : between.files.read (Cache.pathFor cache url) = .ok content :=
        read_eq_ok_iff.mpr ⟨hresolve, hnode⟩
      rcases ends_bind_iff.mp hrest with ⟨_, hfails, -⟩ | ⟨_, _, -, hrest⟩
      · cases (hfails.unique (ends_look_ok_iff.mpr ⟨hread, rfl⟩)).1
      · cases (ends_pure_iff.mp hrest).1

/-- The last of the requests that were sent and what came of it. -/
def LastReply (world : World) (asked : String) (reply : Web.Reply) : Prop :=
  ∃ earlier, world.requests = asked :: earlier ∧ world.server earlier asked = reply

/-- A body was read as that of the document at a URL: it is kept, or the server gave it. -/
def Read (cache : Path) (client : Web.Client) (url : String) (world : World) (body : ByteArray) :
    Prop :=
  world.files.read (Cache.pathFor cache url) = .ok body ∨ Obtained world client url body

/-- How fetching the document at a URL fails, and what of it the world shows. -/
inductive FetchFailure (cache : Path) (client : Web.Client) (url : String) (after : World) :
    Failure → Prop
  | unreadable {body : ByteArray} {fault : Json.Fault} :
    Read cache client url after body → Json.ofBytes body = .error fault →
      FetchFailure cache client url after (.document url (.unreadable fault))
  | shape (violations : List Schema.Violation) :
    FetchFailure cache client url after (.document url (.shape violations))
  | badStatus (bad : Web.BadStatus) : FetchFailure cache client url after (.badStatus bad)
  | tooManyRedirects : FetchFailure cache client url after .tooManyRedirects
  | transport {asked : String} {fault : Web.TransportFault} {message : String} :
    LastReply after asked (.failed fault message) →
      FetchFailure cache client url after (.transport fault message)
  | badUrl {fault : Web.UrlFault} :
    Web.Url.ofString url = .error fault → FetchFailure cache client url after (.badUrl fault)
  | badLocation {asked : Web.Url} {response : Web.Response} {location : String}
    {message : String} :
    LastReply after asked.text (.response response) → response.redirect? = some location →
      Web.nextUrl asked location = .error (.transport .remoteProtocolError message) →
        FetchFailure cache client url after (.transport .remoteProtocolError message)
  | badRedirect {asked : Web.Url} {response : Web.Response} {location : String}
    {fault : Web.UrlFault} :
    LastReply after asked.text (.response response) → response.redirect? = some location →
      Web.nextUrl asked location = .error (.badUrl fault) →
        FetchFailure cache client url after (.badUrl fault)
  | file {error : FileError} :
    (error = .embeddedNul → HasNul cache) → FetchFailure cache client url after (.file error)

/-- A path of the cache fails as one of the causes of a fetch. -/
theorem Refused.fetchFailure {failure : Failure} (h : Refused (HasNul cache) failure) :
    FetchFailure cache client url after failure := by
  obtain ⟨error, rfl, hnul⟩ := h
  exact .file hnul

/-- A location that cannot be followed is a fault of the server or gives a bad URL. -/
theorem nextUrl_eq_error {asked : Web.Url} {location : String} {failure : Failure}
    (h : Web.nextUrl asked location = .error failure) :
    (∃ message, failure = .transport .remoteProtocolError message) ∨
      ∃ fault, failure = .badUrl fault := by
  rw [Web.nextUrl] at h
  cases hread : Web.Url.read location.toList with
  | error fault =>
    rw [hread] at h
    cases h
    exact Or.inl ⟨_, rfl⟩
  | ok seen =>
    rw [hread] at h
    change (asked.redirected seen).mapError Failure.badUrl = .error failure at h
    cases hredirected : asked.redirected seen with
    | error fault =>
      rw [hredirected] at h
      cases h
      exact Or.inr ⟨fault, rfl⟩
    | ok next =>
      rw [hredirected] at h
      cases h

/-- A location that cannot be followed fails the fetch, in either way. -/
theorem fetchFailure_of_nextUrl {asked : Web.Url} {response : Web.Response} {location : String}
    {failure : Failure} (hlast : LastReply after asked.text (.response response))
    (hredirect : response.redirect? = some location)
    (hnext : Web.nextUrl asked location = .error failure) :
    FetchFailure cache client url after failure := by
  obtain ⟨message, rfl⟩ | ⟨fault, rfl⟩ := nextUrl_eq_error hnext
  · exact .badLocation hlast hredirect hnext
  · exact .badRedirect hlast hredirect hnext

/-- A document is named by the URL under which it was asked for. -/
theorem FetchFailure.url_eq {other : String} {fault : DocumentFault}
    (h : FetchFailure cache client url after (.document other fault)) : other = url := by
  cases h <;> rfl

section Getting

variable (cache : Path) (client : Web.Client) (url : String)

/-- A single request fails for what comes of it: no answer, or one that sends on to a location
that cannot be followed. -/
theorem failsOnly_ask (target : Web.Url) :
    FailsOnly (FetchFailure cache client url) (Web.ask client target) := by
  intro world failure after hends
  rcases ends_bind_iff.mp hends with ⟨_, hfails, heq⟩ | ⟨response, answered, hrequest, hrest⟩
  · cases heq
    rw [world_of_request hfails]
    rw [ends_request_iff] at hfails
    cases hreply : world.server world.requests target.text with
    | response found =>
      rw [hreply] at hfails
      cases (ends_pure_iff.mp hfails).1
    | failed fault message =>
      rw [hreply] at hfails
      cases (ends_throw_iff.mp hfails).1
      exact .transport ⟨_, rfl, hreply⟩
  obtain ⟨hreply, rfl⟩ := ends_request_ok_iff.mp hrequest
  cases hredirect : response.redirect? with
  | none =>
    rw [hredirect] at hrest
    cases (ends_pure_iff.mp hrest).1
  | some location =>
    rw [hredirect] at hrest
    rcases ends_bind_iff.mp hrest with ⟨_, hfails, heq⟩ | ⟨next, _, -, hrest⟩
    · cases heq
      obtain ⟨hnext, rfl⟩ := ends_ofExcept_iff.mp hfails
      cases hlocation : Web.nextUrl target location with
      | ok next =>
        rw [hlocation] at hnext
        cases hnext
      | error fault =>
        rw [hlocation] at hnext
        cases hnext
        exact fetchFailure_of_nextUrl ⟨_, rfl, hreply⟩ hredirect hlocation
    · cases (ends_pure_iff.mp hrest).1

/-- However many redirects are left, the request that fails is the last one. -/
theorem failsOnly_follow (left : Nat) (target : Web.Url) :
    FailsOnly (FetchFailure cache client url) (Web.follow client left target) := by
  induction left generalizing target with
  | zero =>
    refine (failsOnly_ask cache client url target).bind fun answer => ?_
    rcases answer with ⟨response, _ | next⟩
    · exact failsOnly_pure _
    · exact failsOnly_throw fun _ => .tooManyRedirects
  | succ left ih =>
    refine (failsOnly_ask cache client url target).bind fun answer => ?_
    rcases answer with ⟨response, _ | next⟩
    · exact failsOnly_pure _
    · exact ih next

/-- Getting the body of a document fails at its URL, at a request or at a status. -/
theorem failsOnly_getBody : FailsOnly (FetchFailure cache client url)
    (Web.getBody client url) := by
  have hopen : FailsOnly (FetchFailure cache client url)
      (ofExcept .badUrl (Web.Url.ofString url)) := failsOnly_ofExcept fun _ _ => .badUrl
  refine hopen.bind fun target => ?_
  refine (failsOnly_follow cache client url _ target.target).bind fun answer => ?_
  have haccepted : FailsOnly (FetchFailure cache client url)
      (ofExcept id (Web.accepted answer.1 answer.2)) := by
    apply failsOnly_ofExcept
    intro _ failure hfailure
    rw [Web.accepted] at hfailure
    split at hfailure
    · cases hfailure
    · cases hfailure
      exact .badStatus _
  exact haccepted.bind fun _ => failsOnly_pure _

end Getting

/-- A body that is read for a document fails for its own fault, and nothing happens. -/
theorem readFailure {body : ByteArray} {failure : Failure}
    (hbody : Read cache client url world body)
    (h : Ends (ofExcept id (Fetch.readDocument url body)) world (.error failure) after) :
    FetchFailure cache client url after failure := by
  obtain ⟨hfailure, rfl⟩ := ends_ofExcept_iff.mp h
  rw [Fetch.readDocument] at hfailure
  cases hbytes : Json.ofBytes body with
  | ok value =>
    rw [hbytes] at hfailure
    cases hfailure
  | error fault =>
    rw [hbytes] at hfailure
    cases hfailure
    exact .unreadable hbody hbytes

/-- A record fails to be read only for the shape of its document. -/
theorem failsOnly_readRecord (cache : Path) (client : Web.Client) (url : String)
    (found : Schema.Checked α) :
    FailsOnly (FetchFailure cache client url) (ofExcept id (Fetch.readRecord url found)) := by
  cases found with
  | good record => exact failsOnly_pure record
  | bad violations => exact failsOnly_throw fun _ => .shape violations

/-- Fetching a document fails as it is looked up, asked for, read or kept. -/
theorem failsOnly_json (cache : Path) (client : Web.Client) (url : String) :
    FailsOnly (FetchFailure cache client url) (Fetch.json cache client url) := by
  intro world failure after hends
  rcases ends_bind_iff.mp hends with ⟨_, hfails, heq⟩ | ⟨found, between, hfound, hrest⟩
  · cases heq
    exact ((failsOnly_lookUp cache url hfails).mono False.elim).fetchFailure
  cases found with
  | some body =>
    obtain ⟨rfl, hread⟩ := ends_read_iff.mp hfound
    exact readFailure (Or.inl hread) hrest
  | none =>
    rcases ends_bind_iff.mp hrest with ⟨_, hfails, -⟩ | ⟨_, printed, -, hask⟩
    · cases (ends_printLine_iff.mp hfails).1
    rcases ends_bind_iff.mp hask with ⟨_, hfails, heq⟩ | ⟨body, asked, hbody, hread⟩
    · cases heq
      exact failsOnly_getBody cache client url hfails
    rcases ends_bind_iff.mp hread with ⟨_, hfails, heq⟩ | ⟨value, read, -, hkeep⟩
    · cases heq
      exact readFailure (Or.inr (obtained_of_getBody hbody)) hfails
    rcases ends_bind_iff.mp hkeep with ⟨_, hfails, heq⟩ | ⟨_, last, -, hend⟩
    · cases heq
      -- a document that came was asked for, so that its URL is one
      obtain ⟨target, _, hopen, -⟩ := ends_bind_ok_iff.mp hbody
      have hurl := nul_not_mem_of_url (ends_ofExcept_ok_iff.mp hopen).1
      exact ((failsOnly_keep cache url body hfails).mono fun hnul =>
        hnul.resolve_right hurl).fetchFailure
    · cases (ends_pure_iff.mp hend).1

/-- The listing fails as the document at its URL does. -/
theorem failsOnly_listing (cache : Path) (client : Web.Client) (root : String) :
    FailsOnly (FetchFailure cache client root) (Fetch.listing cache client root) :=
  (failsOnly_json cache client root).bind fun _ => failsOnly_readRecord cache client root _

/-- Fetching a resource fails as fetching the document at the URL of its entry does. -/
theorem failsOnly_resource (cache : Path) (client : Web.Client) (root : String)
    (listing : Listing) (entry : ListingEntry) :
    FailsOnly (FetchFailure cache client (Fetch.entryUrl root listing entry))
      (Fetch.resource cache client root listing entry) := by
  refine (failsOnly_printLine _).bind fun _ => ?_
  refine (failsOnly_json cache client _).bind fun value => ?_
  exact (failsOnly_readRecord cache client _ _).bind fun _ => failsOnly_pure _

end Fetching

end ApiClientGen.FailureCauses
