import ApiClientGen.Proofs.FinalFiles
import ApiClientGen.Proofs.ScriptText
import ApiClientGen.Proofs.TwinTrees
import ApiClientGen.Proofs.Warnings

/-!
Two runs side by side: one that writes a class for each resource, and one that writes a class for
all of them at the end. Both begin alike, and from then on their trees differ only where classes
are written. A step that both make has the same effect in both, and one that only one of them
makes writes a class.
-/
namespace ApiClientGen.TwinRuns

open FilePlaces FileTree Generate KeptDocuments OutputFiles OutputNames Run ScriptText Warnings

variable {α β γ δ : Type} {settings : Settings} {cache path : Path} {client : Web.Client}
  {home place : FilePlace} {tree changed other : FileTree} {first second world after : World}

section Paired

variable {R : World → World → Prop} {S : α → β → Prop} {T : γ → δ → Prop}

/-- Where two computations begin in related worlds and both end well, the worlds at the end and
the results are related. -/
def Paired (R : World → World → Prop) (S : α → β → Prop) (action : Run α) (other : Run β) :
    Prop :=
  ∀ ⦃first second value result last final⦄, R first second →
    Ends action first (.ok value) last → Ends other second (.ok result) final →
      S value result ∧ R last final

/-- A computation that keeps two worlds related and has the same result in both. -/
def Alike (R : World → World → Prop) (action : Run α) : Prop :=
  Paired R Eq action action

theorem Paired.bind {action : Run α} {other : Run β} {next : α → Run γ} {further : β → Run δ}
    (h : Paired R S action other)
    (hnext : ∀ value result, S value result → Paired R T (next value) (further result)) :
    Paired R T (action >>= next) (other >>= further) := by
  intro first second value result last final hbeside hfirst hsecond
  obtain ⟨found, between, hfound, hrest⟩ := ends_bind_ok_iff.mp hfirst
  obtain ⟨found', between', hfound', hrest'⟩ := ends_bind_ok_iff.mp hsecond
  obtain ⟨hsame, hbetween⟩ := h hbeside hfound hfound'
  exact hnext found found' hsame hbetween hrest hrest'

theorem Alike.paired_bind {action : Run α} {next : α → Run γ} {further : α → Run δ}
    (h : Alike R action) (hnext : ∀ value, Paired R T (next value) (further value)) :
    Paired R T (action >>= next) (action >>= further) := by
  refine Paired.bind h ?_
  rintro value result rfl
  exact hnext value

theorem Alike.bind {action : Run α} {next : α → Run β} (h : Alike R action)
    (hnext : ∀ value, Alike R (next value)) : Alike R (action >>= next) :=
  h.paired_bind hnext

theorem alike_pure (value : α) : Alike R (pure value : Run α) := by
  intro first second found result last final hbeside hfirst hsecond
  obtain ⟨heq, rfl⟩ := ends_pure_iff.mp hfirst
  obtain ⟨heq', rfl⟩ := ends_pure_iff.mp hsecond
  exact ⟨Except.ok.inj (heq.trans heq'.symm), hbeside⟩

theorem alike_throw (failure : Failure) : Alike R (throw failure : Run α) := by
  intro first second found result last final _ hfirst
  cases (ends_throw_iff.mp hfirst).1

theorem alike_ofExcept {ε : Type} (failure : ε → Failure) (result : Except ε α) :
    Alike R (ofExcept failure result) := by
  cases result with
  | ok value => exact alike_pure value
  | error error => exact alike_throw (failure error)

end Paired

def classPlaces (home : FilePlace) : Set FilePlace :=
  {place | ∃ stem, place = home ++ [stem ++ ".ts"]}

/-- A tree in which all directories stand that a run needs behind its listing. -/
structure Ready (settings : Settings) (cache : Path) (home : FilePlace) (tree : FileTree) :
    Prop where
  home_eq : tree.placeOf settings.dest = home
  dest : tree.isDirectory settings.dest = .ok true
  interfaces : tree.isDirectory (interfacesDir settings) = .ok true
  cache : tree.walk (tree.start cache) cache.parts = .ok (tree.placeOf cache) ∧
    tree.node? (tree.placeOf cache) = some .directory ∨
      ∃ content, tree.node? (tree.placeOf cache) = some (.file content)

theorem Ready.of_grows {written : Set FilePlace} {before last : FileTree}
    (h : Ready settings cache home before) (hgrows : Grows written before last) :
    Ready settings cache home last := by
  have hstart : last.start cache = before.start cache := by
    rw [start, start, hgrows.here_eq]
  refine ⟨(hgrows.placeOf_eq _).trans h.home_eq, hgrows.isDirectory h.dest,
    hgrows.isDirectory h.interfaces, ?_⟩
  rw [hgrows.placeOf_eq, hstart]
  rcases h.cache with ⟨hwalk, hnode⟩ | ⟨content, hnode⟩
  · exact Or.inl ⟨hgrows.walk hwalk, hgrows.directory hnode⟩
  · exact Or.inr (hgrows.file hnode)

section Spoiled

/-- A file stands at a place that is no document. -/
def Spoiled (place : FilePlace) (tree : FileTree) : Prop :=
  ∃ body, tree.node? place = some (.file body) ∧ NoDocument body

/-- Two trees hold the same at a place, unless the file of one of them is no document. -/
def Meet (place : FilePlace) (tree other : FileTree) : Prop :=
  tree.node? place = other.node? place ∨ Spoiled place tree ∨ Spoiled place other

variable {left right : FileTree} {path : Path} {content : ByteArray}

theorem Meet.symm (h : Meet place left right) : Meet place right left := by
  rcases h with heq | hspoiled | hspoiled
  · exact Or.inl heq.symm
  · exact Or.inr (Or.inr hspoiled)
  · exact Or.inr (Or.inl hspoiled)

theorem Meet.write (h : Meet place left right) (hsame : right.placeOf path = left.placeOf path)
    (hleft : left.write path content = .ok changed)
    (hright : right.write path content = .ok other) : Meet place changed other := by
  obtain ⟨-, hnot, rfl⟩ := write_eq_ok_iff.mp hleft
  obtain ⟨-, -, rfl⟩ := write_eq_ok_iff.mp hright
  rw [hsame]
  by_cases hplace : place = left.placeOf path
  · rw [hplace]
    have hne : left.placeOf path ≠ [] := ne_nil_of_node? hnot
    exact Or.inl ((node?_put_self left _ hne).trans (node?_put_self right _ hne).symm)
  · rw [Meet, Spoiled, Spoiled, node?_put_of_ne left _ hplace, node?_put_of_ne right _ hplace]
    exact h

/-- What is no document may be written in one of them. -/
theorem Meet.of_write (h : Meet place left right) (hcontent : NoDocument content)
    (hwrite : right.write path content = .ok changed) : Meet place left changed := by
  obtain ⟨-, hnot, rfl⟩ := write_eq_ok_iff.mp hwrite
  by_cases hplace : place = right.placeOf path
  · rw [hplace]
    exact Or.inr (Or.inr ⟨content, node?_put_self right _ (ne_nil_of_node? hnot), hcontent⟩)
  · rw [Meet, Spoiled, Spoiled, node?_put_of_ne right _ hplace]
    exact h

end Spoiled

/-- Two worlds that differ in the files of classes only. The directory of documents may itself be
the file of a class; then it is no document in the world in which that class was written. -/
structure Beside (settings : Settings) (cache : Path) (home : FilePlace) (first second : World) :
    Prop where
  twins : Twins (classPlaces home) first.files second.files
  meet : Meet (first.files.placeOf cache) first.files second.files
  server_eq : second.server = first.server
  requests_eq : second.requests = first.requests
  ready : Ready settings cache home first.files
  ready_second : Ready settings cache home second.files

section Steps

theorem alike_printLine (line : String) :
    Alike (Beside settings cache home) (printLine line) := by
  intro first second value result last final hbeside hfirst hsecond
  obtain ⟨-, rfl⟩ := ends_printLine_iff.mp hfirst
  obtain ⟨-, rfl⟩ := ends_printLine_iff.mp hsecond
  exact ⟨rfl, hbeside.twins, hbeside.meet, hbeside.server_eq, hbeside.requests_eq, hbeside.ready,
    hbeside.ready_second⟩

theorem alike_request (url : String) : Alike (Beside settings cache home) (request url) := by
  intro first second value result last final hbeside hfirst hsecond
  obtain ⟨hreply, rfl⟩ := ends_request_ok_iff.mp hfirst
  obtain ⟨hreply', rfl⟩ := ends_request_ok_iff.mp hsecond
  rw [hbeside.server_eq, hbeside.requests_eq, hreply] at hreply'
  cases hreply'
  exact ⟨rfl, hbeside.twins, hbeside.meet, hbeside.server_eq,
    congrArg (url :: ·) hbeside.requests_eq, hbeside.ready, hbeside.ready_second⟩

theorem alike_ask (client : Web.Client) (url : Web.Url) :
    Alike (Beside settings cache home) (Web.ask client url) := by
  refine (alike_request url.text).bind fun response => ?_
  cases response.redirect? with
  | none => exact alike_pure _
  | some location => exact (alike_ofExcept id _).bind fun next => alike_pure _

theorem alike_follow (client : Web.Client) (left : Nat) (url : Web.Url) :
    Alike (Beside settings cache home) (Web.follow client left url) := by
  induction left generalizing url with
  | zero =>
    refine (alike_ask client url).bind fun answer => ?_
    rcases answer with ⟨response, _ | next⟩
    · exact alike_pure _
    · exact alike_throw _
  | succ left ih =>
    refine (alike_ask client url).bind fun answer => ?_
    rcases answer with ⟨response, _ | next⟩
    · exact alike_pure _
    · exact ih next

theorem alike_getBody (client : Web.Client) (url : String) :
    Alike (Beside settings cache home) (Web.getBody client url) := by
  refine (alike_ofExcept Failure.badUrl _).bind fun target => ?_
  refine (alike_follow client Web.redirectLimit target.target).bind fun answer => ?_
  exact (alike_ofExcept id _).bind fun response => alike_pure _

/-- The same text or document is written in both worlds. -/
theorem Beside.of_write (h : Beside settings cache home first second) {content : ByteArray}
    (hfirst : first.files.write path content = .ok changed)
    (hsecond : second.files.write path content = .ok other) :
    Beside settings cache home { first with files := changed }
      { second with files := other } := by
  obtain ⟨hgrows, -⟩ := grows_of_write hfirst
  refine ⟨h.twins.write hfirst hsecond, ?_, h.server_eq, h.requests_eq, h.ready.of_grows hgrows,
    h.ready_second.of_grows (grows_of_write hsecond).1⟩
  rw [hgrows.placeOf_eq]
  exact h.meet.write (h.twins.placeOf_eq path) hfirst hsecond

/-- A directory that stands is not made. -/
theorem eq_of_ensureDirectories {value : Unit} (hdir : world.files.isDirectory path = .ok true)
    (h : Ends (ensureDirectories path) world (.ok value) after) : after = world := by
  obtain ⟨changed, hmade, rfl⟩ := ends_ensureDirectories_ok_iff.mp h
  rw [ensureDirectories_of_isDirectory hdir] at hmade
  cases hmade
  rfl

theorem Beside.symm (h : Beside settings cache home first second) :
    Beside settings cache home second first := by
  refine ⟨h.twins.symm, ?_, h.server_eq.symm, h.requests_eq.symm, h.ready_second, h.ready⟩
  rw [h.twins.placeOf_eq]
  exact h.meet.symm

/-- Whether a document is kept is the same in both worlds, also where the document of an empty key
lies at the place of its directory. -/
theorem Beside.isFile (h : Beside settings cache home first second) (url : String)
    (hfile : first.files.isFile (Cache.pathFor cache url) = .ok true) :
    second.files.isFile (Cache.pathFor cache url) = .ok true := by
  by_cases hkey : Cache.key url = ""
  · rw [pathFor_of_key_eq_empty cache hkey] at hfile ⊢
    rw [isFile_eq_true_iff] at hfile ⊢
    obtain ⟨hresolve, content, hnode⟩ := hfile
    rw [h.twins.placeOf_eq]
    refine ⟨h.twins.resolve hresolve, ?_⟩
    rcases h.ready_second.cache with ⟨-, hdirectory⟩ | hfile
    · rw [h.twins.placeOf_eq, ← h.twins.directory_iff, hnode] at hdirectory
      cases hdirectory
    · rwa [h.twins.placeOf_eq] at hfile
  · refine h.twins.isFile ?_ hfile
    rintro ⟨stem, hplace⟩
    exact not_outputPlace_pathFor first.files cache hkey ⟨home, stem, hplace⟩

/-- A document that can be read in both worlds has the same value in both. -/
theorem Beside.eq_of_read (h : Beside settings cache home first second) {url : String}
    {body body' : ByteArray} {value value' : Json}
    (hread : first.files.read (Cache.pathFor cache url) = .ok body)
    (hread' : second.files.read (Cache.pathFor cache url) = .ok body')
    (hvalue : Json.ofBytes body = .ok value) (hvalue' : Json.ofBytes body' = .ok value') :
    value = value' := by
  by_cases hkey : Cache.key url = ""
  · -- such a document lies where the directory of documents would, and that may be a class
    rw [pathFor_of_key_eq_empty cache hkey, read_eq_ok_iff] at hread hread'
    rw [h.twins.placeOf_eq] at hread'
    rcases h.meet with heq | ⟨spoiled, hnode, hno⟩ | ⟨spoiled, hnode, hno⟩
    · rw [hread.2, hread'.2] at heq
      cases heq
      exact Except.ok.inj (hvalue.symm.trans hvalue')
    · rw [hread.2] at hnode
      cases hnode
      exact absurd hvalue (hno value)
    · rw [hread'.2] at hnode
      cases hnode
      exact absurd hvalue' (hno value')
  · have hplace : first.files.placeOf (Cache.pathFor cache url) ∉ classPlaces home := by
      rintro ⟨stem, hplace⟩
      exact not_outputPlace_pathFor first.files cache hkey ⟨home, stem, hplace⟩
    rw [h.twins.read hplace hread] at hread'
    cases hread'
    exact Except.ok.inj (hvalue.symm.trans hvalue')

/-- What two worlds keep for a URL: nothing, or documents of one value as far as both can be
read. -/
inductive Agree : Option ByteArray → Option ByteArray → Prop
  | absent : Agree none none
  | kept {body body' : ByteArray} (h : ∀ value value', Json.ofBytes body = .ok value →
      Json.ofBytes body' = .ok value' → value = value') : Agree (some body) (some body')

theorem paired_lookUp (url : String) : Paired (Beside settings cache home) Agree
    (Cache.read cache url) (Cache.read cache url) := by
  intro first second found found' last final hbeside hfirst hsecond
  obtain ⟨rfl, hfound⟩ := ends_read_iff.mp hfirst
  obtain ⟨rfl, hfound'⟩ := ends_read_iff.mp hsecond
  refine ⟨?_, hbeside⟩
  cases found with
  | some body =>
    cases found' with
    | some body' => exact .kept fun _ _ => hbeside.eq_of_read hfound hfound'
    | none =>
      rw [hbeside.isFile url (isFile_of_read hfound)] at hfound'
      cases hfound'
  | none =>
    cases found' with
    | none => exact .absent
    | some body' =>
      rw [hbeside.symm.isFile url (isFile_of_read hfound')] at hfound
      cases hfound

theorem write_of_keep {url : String} {body : ByteArray}
    (hready : Ready settings cache home world.files)
    (h : Ends (Cache.write cache url body) world (.ok path) after) :
    ∃ changed, world.files.write (Cache.pathFor cache url) body = .ok changed ∧
      after = { world with files := changed } := by
  obtain ⟨_, made, hmade, hrest⟩ := ends_bind_ok_iff.mp h
  -- the directory stands afterwards, so no file was in its place, and then it stood before
  have hdir : world.files.isDirectory cache = .ok true := by
    obtain ⟨directories, hmake, -⟩ := ends_ensureDirectories_ok_iff.mp hmade
    obtain ⟨hgrows, hstands⟩ := grows_of_ensureDirectories hmake
    obtain ⟨hresolve, hnode⟩ := isDirectory_eq_true_iff.mp hstands
    obtain ⟨hnul, hshort, -⟩ := resolve_eq_ok_iff.mp hresolve
    rw [hgrows.placeOf_eq] at hnode
    rcases hready.cache with ⟨hwalk, hdirectory⟩ | ⟨content, hfile⟩
    · exact isDirectory_eq_true_iff.mpr
        ⟨resolve_eq_ok_iff.mpr ⟨hnul, hshort, hwalk⟩, hdirectory⟩
    · obtain ⟨found, hfound⟩ := hgrows.file hfile
      rw [hnode] at hfound
      cases hfound
  obtain rfl := eq_of_ensureDirectories hdir hmade
  obtain ⟨_, written, hwritten, hrest⟩ := ends_bind_ok_iff.mp hrest
  obtain ⟨-, rfl⟩ := ends_pure_iff.mp hrest
  exact ends_writeFile_ok_iff.mp hwritten

theorem write_of_text {text : String} {written : Path}
    (hdir : world.files.isDirectory path.parent = .ok true)
    (h : Ends (writeText path text) world (.ok written) after) :
    ∃ changed, world.files.write path text.toUTF8 = .ok changed ∧
      after = { world with files := changed } := by
  obtain ⟨_, made, hmade, hrest⟩ := ends_bind_ok_iff.mp h
  obtain rfl := eq_of_ensureDirectories hdir hmade
  obtain ⟨_, last, hwritten, hrest⟩ := ends_bind_ok_iff.mp hrest
  obtain ⟨-, rfl⟩ := ends_pure_iff.mp hrest
  exact ends_writeFile_ok_iff.mp hwritten

/-- A document that is fetched in both worlds has the same value in both. -/
theorem alike_json (client : Web.Client) (url : String) :
    Alike (Beside settings cache home) (Fetch.json cache client url) := by
  refine (paired_lookUp url).bind fun found found' hagree => ?_
  cases hagree with
  | kept hsame =>
    intro first second value result last final hbeside hfirst hsecond
    obtain ⟨hvalue, rfl⟩ := ends_ofExcept_ok_iff.mp hfirst
    obtain ⟨hvalue', rfl⟩ := ends_ofExcept_ok_iff.mp hsecond
    exact ⟨hsame value result (readDocument_eq_ok_iff.mp hvalue)
      (readDocument_eq_ok_iff.mp hvalue'), hbeside⟩
  | absent =>
    refine (alike_printLine _).bind fun _ => ?_
    refine (alike_getBody client url).bind fun body => ?_
    refine (alike_ofExcept id _).bind fun value => ?_
    intro first second found result last final hbeside hfirst hsecond
    obtain ⟨kept, between, hkept, hrest⟩ := ends_bind_ok_iff.mp hfirst
    obtain ⟨kept', between', hkept', hrest'⟩ := ends_bind_ok_iff.mp hsecond
    obtain ⟨heq, rfl⟩ := ends_pure_iff.mp hrest
    obtain ⟨heq', rfl⟩ := ends_pure_iff.mp hrest'
    obtain ⟨changed, hwrite, rfl⟩ := write_of_keep hbeside.ready hkept
    obtain ⟨other, hwrite', rfl⟩ := write_of_keep hbeside.ready_second hkept'
    exact ⟨Except.ok.inj (heq.trans heq'.symm), hbeside.of_write hwrite hwrite'⟩

theorem alike_resource (client : Web.Client) (root : String) (listing : Listing)
    (entry : ListingEntry) :
    Alike (Beside settings cache home) (Fetch.resource cache client root listing entry) := by
  refine (alike_printLine _).bind fun _ => ?_
  refine (alike_json client _).bind fun value => ?_
  exact (alike_ofExcept id _).bind fun found => alike_pure _

/-- Files whose directories stand are written in both worlds alike. -/
theorem paired_drafts {list : List Draft} (hparents : ∀ draft ∈ list,
    draft.1.parent = settings.dest ∨ draft.1.parent = interfacesDir settings) :
    Paired (Beside settings cache home) (fun _ _ => True) (writeDrafts list)
      (writeDrafts list) := by
  induction list with
  | nil =>
    intro first second value result last final hbeside hfirst hsecond
    obtain ⟨-, rfl⟩ := ends_pure_iff.mp hfirst
    obtain ⟨-, rfl⟩ := ends_pure_iff.mp hsecond
    exact ⟨trivial, hbeside⟩
  | cons draft rest ih =>
    obtain ⟨hparent, hrest⟩ := List.forall_mem_cons.mp hparents
    have hdir : ∀ {tree}, Ready settings cache home tree →
        tree.isDirectory draft.1.parent = .ok true := by
      intro tree hready
      rcases hparent with heq | heq
      · rw [heq, hready.dest]
      · rw [heq, hready.interfaces]
    intro first second value result last final hbeside hfirst hsecond
    obtain ⟨written, between, hwritten, hfurther⟩ := ends_bind_ok_iff.mp hfirst
    obtain ⟨written', between', hwritten', hfurther'⟩ := ends_bind_ok_iff.mp hsecond
    obtain ⟨others, ended, hothers, hend⟩ := ends_bind_ok_iff.mp hfurther
    obtain ⟨others', ended', hothers', hend'⟩ := ends_bind_ok_iff.mp hfurther'
    obtain ⟨-, rfl⟩ := ends_pure_iff.mp hend
    obtain ⟨-, rfl⟩ := ends_pure_iff.mp hend'
    obtain ⟨changed, hwrite, rfl⟩ := write_of_text (hdir hbeside.ready) hwritten
    obtain ⟨other, hwrite', rfl⟩ := write_of_text (hdir hbeside.ready_second) hwritten'
    exact ih hrest (hbeside.of_write hwrite hwrite') hothers hothers'

theorem slash_not_mem_ts {stem : String} (h : '/' ∉ stem.toList) :
    '/' ∉ (stem ++ ".ts").toList := by
  have hplain : (FileName.ofClass stem).Plain := h
  exact hplain.slash_not_mem

theorem parent_child (directory : Path) {stem : String} (h : '/' ∉ stem.toList) :
    (directory.child (stem ++ ".ts")).parent = directory := by
  rw [Path.child_of_isPart _ (slash_not_mem_ts h) (isPart_ts stem), Path.parent,
    List.dropLast_concat]

/-- What a check of references says is all that it does. -/
theorem said_of_check {name : String} {resource : Resource} {strict : Bool}
    {missing : List String}
    (h : Ends (checkReferences name resource strict) world (.ok missing) after) :
    ∃ said, after = { world with stderr := said } := by
  by_cases hnil : resource.danglingReferences = []
  · rw [checkReferences_of_nil hnil] at h
    exact ⟨world.stderr, (ends_pure_iff.mp h).2⟩
  · cases strict with
    | true =>
      rw [checkReferences_strict hnil] at h
      cases (ends_throw_iff.mp h).1
    | false =>
      rw [checkReferences_lax hnil] at h
      obtain ⟨_, warned, hwarn, hrest⟩ := ends_bind_ok_iff.mp h
      obtain ⟨-, rfl⟩ := ends_pure_iff.mp hrest
      exact ⟨_, (ends_warn_iff.mp hwarn).2⟩

/-- A file that is written in one of the worlds beside the base class lies where they may
differ. -/
theorem Beside.of_draft (h : Beside settings cache home first second) {name text : String}
    {paths : List Path} (hslash : '/' ∉ name.toList) (htext : NoDocument text.toUTF8)
    (hends : Ends (writeDrafts [(settings.dest.child (name ++ ".ts"), text)]) second (.ok paths)
      after) : Beside settings cache home first after := by
  rw [writeDrafts, ends_bind_ok_iff] at hends
  obtain ⟨written, wrote, hwritten, hrest⟩ := hends
  rw [writeDrafts, ends_bind_ok_iff] at hrest
  obtain ⟨others, last, hothers, hrest⟩ := hrest
  obtain ⟨-, rfl⟩ := ends_pure_iff.mp hothers
  obtain ⟨-, rfl⟩ := ends_pure_iff.mp hrest
  have hdir : second.files.isDirectory (settings.dest.child (name ++ ".ts")).parent =
      .ok true := by
    rw [parent_child settings.dest hslash]
    exact h.ready_second.dest
  obtain ⟨changed, hwrite, rfl⟩ := write_of_text hdir hwritten
  have hplace : second.files.placeOf (settings.dest.child (name ++ ".ts")) ∈
      classPlaces home := by
    rw [placeOf_child second.files settings.dest (slash_not_mem_ts hslash) (isPart_ts name)
      (ts_ne_points name), h.ready_second.home_eq]
    exact ⟨name, rfl⟩
  exact ⟨h.twins.trans (Twins.of_write hplace hwrite), h.meet.of_write htext hwrite, h.server_eq,
    h.requests_eq, h.ready, h.ready_second.of_grows (grows_of_write hwrite).1⟩

theorem Beside.of_said (h : Beside settings cache home first second) (said : String) :
    Beside settings cache home first { second with stderr := said } :=
  ⟨h.twins, h.meet, h.server_eq, h.requests_eq, h.ready, h.ready_second⟩

theorem Beside.of_class (h : Beside settings cache home first second) {other : Settings}
    (hdest : other.dest = settings.dest) {name : String} {resource : Resource}
    {paths : List Path} (hslash : '/' ∉ name.toList)
    (hends : Ends (writeClass other name resource) second (.ok paths) after) :
    Beside settings cache home first after := by
  rw [writeClass, ends_bind_ok_iff] at hends
  obtain ⟨missing, checked, hcheck, hdrafts⟩ := hends
  obtain ⟨said, rfl⟩ := said_of_check hcheck
  rw [classDraft, hdest] at hdrafts
  exact (h.of_said said).of_draft hslash (noDocument_classText _ _ _ _) hdrafts

end Steps

def ungrouped (settings : Settings) : Settings :=
  { settings with groupClass := "" }

section Runs

variable {resource : Resource} {resources : List Resource} {paths others : List Path}

theorem paired_interfaces (hplain : PlainNames settings resources)
    (hresource : resource ∈ resources) :
    Paired (Beside settings cache home) (fun _ _ => True) (writeInterfaces settings resource)
      (writeInterfaces settings resource) := by
  rw [writeInterfaces]
  split
  · apply paired_drafts
    intro draft hdraft
    rw [interfaceDrafts, List.mem_append, List.mem_map, List.mem_map] at hdraft
    rcases hdraft with ⟨model, hmodel, rfl⟩ | ⟨operation, hoperation, rfl⟩
    · rw [interfaceDraft_fst]
      exact Or.inr (parent_child _ (hplain.models resource hresource model hmodel))
    · rw [optionsDraft_fst]
      exact Or.inr (parent_child _ (hplain.operations resource hresource operation hoperation))
  · intro first second value result last final hbeside hfirst hsecond
    obtain ⟨-, rfl⟩ := ends_pure_iff.mp hfirst
    obtain ⟨-, rfl⟩ := ends_pure_iff.mp hsecond
    exact ⟨trivial, hbeside⟩

/-- Of a resource the one run writes the interfaces, and the other one also its class. -/
theorem Beside.of_resource (h : Beside settings cache home first second)
    (hgroup : settings.groupClass ≠ "") (hplain : PlainNames settings resources)
    (hresource : resource ∈ resources)
    (hfirst : Ends (writeResource settings resource) first (.ok paths) world)
    (hsecond : Ends (writeResource (ungrouped settings) resource) second (.ok others) after) :
    Beside settings cache home world after := by
  obtain ⟨none, unclassed, hnone, hrest⟩ := ends_bind_ok_iff.mp hfirst
  obtain ⟨own, classed, hown, hrest'⟩ := ends_bind_ok_iff.mp hsecond
  obtain ⟨split, wrote, hsplit, hend⟩ := ends_bind_ok_iff.mp hrest
  obtain ⟨split', wrote', hsplit', hend'⟩ := ends_bind_ok_iff.mp hrest'
  obtain ⟨-, rfl⟩ := ends_pure_iff.mp hend
  obtain ⟨-, rfl⟩ := ends_pure_iff.mp hend'
  rw [writeOwnClass, if_neg hgroup] at hnone
  obtain ⟨-, rfl⟩ := ends_pure_iff.mp hnone
  have hungrouped : (ungrouped settings).groupClass = "" := rfl
  rw [writeOwnClass, if_pos hungrouped] at hown
  have hclassed := h.of_class rfl (plain_className resource) hown
  exact (paired_interfaces hplain hresource hclassed hsplit hsplit').2

/-- Both runs read the same resources. -/
theorem Beside.of_resources (h : Beside settings cache home first second)
    (hgroup : settings.groupClass ≠ "") {listing : Listing} {entries : List ListingEntry}
    {further : List Resource} (hplain : PlainNames settings resources)
    (hfirst : Ends (writeResources settings cache client listing entries) first
      (.ok (paths, resources)) world)
    (hsecond : Ends (writeResources (ungrouped settings) cache client listing entries) second
      (.ok (others, further)) after) :
    further = resources ∧ Beside settings cache home world after := by
  induction entries generalizing first second resources further paths others with
  | nil =>
    obtain ⟨heq, rfl⟩ := ends_pure_iff.mp hfirst
    obtain ⟨heq', rfl⟩ := ends_pure_iff.mp hsecond
    cases heq
    cases heq'
    exact ⟨rfl, h⟩
  | cons entry rest ih =>
    obtain ⟨resource, fetched, written, wrote, ⟨more, found⟩, hfetch, hwrite, hrest, heq⟩ :=
      ends_writeResources_cons_iff.mp hfirst
    obtain ⟨resource', fetched', written', wrote', ⟨more', found'⟩, hfetch', hwrite',
      hrest', heq'⟩ := ends_writeResources_cons_iff.mp hsecond
    cases heq
    cases heq'
    obtain ⟨rfl, hfetched⟩ := alike_resource client settings.url listing entry h hfetch hfetch'
    have hwrote := hfetched.of_resource hgroup hplain (List.mem_cons_self ..) hwrite hwrite'
    have hfurther : PlainNames settings found :=
      ⟨hplain.group, fun other hother => hplain.models other (List.mem_cons_of_mem _ hother),
        fun other hother => hplain.operations other (List.mem_cons_of_mem _ hother)⟩
    obtain ⟨rfl, hended⟩ := ih hwrote hfurther hrest hrest'
    exact ⟨rfl, hended⟩

theorem directories_of_prepare {base : Path}
    (h : Ends (prepare settings) world (.ok base) after) :
    after.files.placeOf settings.dest = world.files.placeOf settings.dest ∧
      after.files.isDirectory settings.dest = .ok true ∧
        (settings.splitInterfaces = true →
          after.files.isDirectory (interfacesDir settings) = .ok true) := by
  rw [prepare, ends_bind_ok_iff] at h
  obtain ⟨_, made, hmake, hrest⟩ := h
  obtain ⟨directories, hdirectories, rfl⟩ := ends_ensureDirectories_ok_iff.mp hmake
  obtain ⟨hfirst, hdest⟩ := grows_of_ensureDirectories hdirectories
  dsimp only at hrest
  split at hrest
  · rw [ends_bind_ok_iff] at hrest
    obtain ⟨_, further, hfurther, hbase⟩ := hrest
    obtain ⟨more, hmore, rfl⟩ := ends_ensureDirectories_ok_iff.mp hfurther
    rw [writeBase_eq] at hbase
    obtain ⟨-, hwritten, -⟩ := ends_writeText_ok hbase
    obtain ⟨hsecond, hinterfaces⟩ := grows_of_ensureDirectories hmore
    refine ⟨?_, hwritten.isDirectory (hsecond.isDirectory hdest),
      fun _ => hwritten.isDirectory hinterfaces⟩
    rw [hwritten.placeOf_eq, hsecond.placeOf_eq, hfirst.placeOf_eq]
  · rename_i hsplit
    rw [writeBase_eq] at hrest
    obtain ⟨-, hwritten, -⟩ := ends_writeText_ok hrest
    refine ⟨?_, hwritten.isDirectory hdest, fun hthen => absurd hthen hsplit⟩
    rw [hwritten.placeOf_eq, hfirst.placeOf_eq]

/-- Once its listing is read, a run has all the directories that it needs. -/
theorem ready_of_listing {base : Path} {listing : Listing}
    (hsplit : settings.splitInterfaces = true)
    (hprepare : Ends (prepare settings) first (.ok base) second)
    (hlisting : Ends (Fetch.listing cache client settings.url) second (.ok listing) world) :
    Ready settings cache (first.files.placeOf settings.dest) world.files := by
  obtain ⟨hhome, hdest, hinterfaces⟩ := directories_of_prepare hprepare
  have hgrows := grows_of_ends_listing hlisting
  obtain ⟨value, hjson, -⟩ := ends_listing_ok hlisting
  obtain ⟨⟨body, -, hread⟩, -⟩ := ends_json_ok hjson
  refine ⟨(hgrows.placeOf_eq _).trans hhome, hgrows.isDirectory hdest,
    hgrows.isDirectory (hinterfaces hsplit), ?_⟩
  obtain ⟨hresolve, hnode⟩ := read_eq_ok_iff.mp hread
  by_cases hkey : Cache.key settings.url = ""
  · rw [pathFor_of_key_eq_empty cache hkey] at hnode
    exact Or.inr ⟨body, hnode⟩
  · rw [placeOf_pathFor _ cache hkey, resolve_pathFor_eq_ok_iff hkey] at hresolve
    obtain ⟨-, -, -, hwalk, hdirectory⟩ := hresolve
    exact Or.inl ⟨hwalk, hdirectory⟩

/-- The class of all resources is the last file that a run writes. -/
theorem Beside.of_group (h : Beside settings cache home first second)
    (hslash : '/' ∉ settings.groupClass.toList)
    (hends : Ends (writeGroup settings resources) second (.ok paths) after) :
    Beside settings cache home first after := by
  rw [writeGroup] at hends
  split at hends
  · obtain ⟨-, rfl⟩ := ends_pure_iff.mp hends
    exact h
  · split at hends
    · cases (ends_throw_iff.mp hends).1
    · exact h.of_class rfl hslash hends

/-- The trees that two runs leave which begin in the same world, the one with a class for all
resources and the other with one for each, differ in the files of classes only. -/
theorem twins_of_runs {last : World} (hsplit : settings.splitInterfaces = true)
    (hgroup : settings.groupClass ≠ "") (hplain : PlainNames settings resources)
    (hreads : Reads settings cache client world resources)
    (h : Ends (runWith settings cache client) world (.ok paths) after)
    (h' : Ends (runWith (ungrouped settings) cache client) world (.ok others) last) :
    Reads (ungrouped settings) cache client world resources ∧
      Twins (classPlaces (world.files.placeOf settings.dest)) after.files last.files := by
  obtain ⟨base, prepared, listing, listed, written, found, wrote, grouped, grew, hprepare,
    hlisting, hresources, hgrouped, -, rfl⟩ := ends_runWith_iff.mp h
  obtain ⟨base', prepared', listing', listed', written', found', wrote', grouped', grew',
    hprepare', hlisting', hresources', hgrouped', -, rfl⟩ := ends_runWith_iff.mp h'
  -- up to the listing both runs make the same steps
  obtain ⟨heq, rfl⟩ := hprepare.unique hprepare'
  cases heq
  obtain ⟨heq, rfl⟩ := hlisting.unique hlisting'
  cases heq
  obtain rfl : resources = found :=
    FinalFiles.eq_of_reads hreads
      ⟨base, prepared, listing, listed, written, wrote, hprepare, hlisting, hresources⟩
  have hready := ready_of_listing hsplit hprepare hlisting
  have hbegin : Beside settings cache (world.files.placeOf settings.dest) listed listed :=
    ⟨Twins.refl _ _, Or.inl rfl, rfl, rfl, hready, hready⟩
  obtain ⟨rfl, hbeside⟩ := hbegin.of_resources hgroup hplain hresources hresources'
  -- and behind the resources only the first one writes a class
  have hungrouped : (ungrouped settings).groupClass = "" := rfl
  rw [writeGroup, if_pos hungrouped] at hgrouped'
  obtain ⟨-, rfl⟩ := ends_pure_iff.mp hgrouped'
  have hended := (hbeside.symm.of_group hplain.group hgrouped).symm
  exact ⟨⟨base, prepared, listing, listed, written', _, hprepare', hlisting', hresources'⟩,
    hended.twins⟩

end Runs

end ApiClientGen.TwinRuns
