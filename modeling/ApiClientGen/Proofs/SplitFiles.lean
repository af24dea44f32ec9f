import ApiClientGen.Proofs.OutputNames

/-!
What the files of single interfaces show at the end of a run. All resources share one directory of
interfaces, and a file replaces the one that is there. So a file shows what was written there
last: the model of a resource, behind its imports, is declared there as it would be inside the
file of the class, unless a later file of the run leads to the same place and declares something
else.
-/
namespace ApiClientGen.SplitFiles

open Declaration FilePlaces FileTree Generate KeptDocuments OutputFiles OutputNames Run Text

variable {settings : Settings} {cache : Path} {client : Web.Client} {world after : World}
  {model : Model} {resource : Resource} {resources : List Resource} {tree : FileTree}
  {path : Path} {list : List Draft} {draft : Draft}

/-- A text is some imports and, behind them, the declaration of a model as it stands inside the
file of a class. -/
def Shows (text : String) (model : Model) : Prop :=
  ∃ names, text = unlines ({ interfaceOf false model with imports := names } : Interface).lines

/-- The imports stand in front of the declaration and do not change it. -/
theorem unlines_imported (names : List String) (model : Model) :
    unlines ({ interfaceOf false model with imports := names } : Interface).lines =
      unlines ({ interfaceOf false model with imports := names } : Interface).header ++
        interfaceText false model := by
  have hinline : (interfaceOf false model).header = [] := rfl
  rw [interfaceText, Interface.lines, Interface.lines, hinline, List.nil_append, unlines_append]
  rfl

theorem shows_interfaceText (split : Bool) (model : Model) :
    Shows (interfaceText split model) model :=
  ⟨if split then modelImports model else [], rfl⟩

theorem suffix_of_shows {text : String} (h : Shows text model) :
    (interfaceText false model).toList <:+ text.toList := by
  obtain ⟨names, rfl⟩ := h
  rw [unlines_imported, String.toList_append]
  exact List.suffix_append _ _

/-- The file of a class declares each model of its resource when interfaces have no files of their
own. -/
theorem infix_classOf (hmodel : model ∈ resource.models.values) (docs : Bool) (name : String) :
    (interfaceOf false model).lines <:+: (classOf false docs name resource).lines := by
  have hspaced : spaced (interfaceOf false model).lines <:+:
      (resource.models.values.map (interfaceOf false)).flatMap fun interface =>
        spaced interface.lines := by
    rw [List.flatMap_map, List.flatMap_def]
    exact List.infix_of_mem_flatten (List.mem_map_of_mem hmodel)
  rw [ClientClass.lines, classOf, if_neg Bool.false_ne_true, Surroundings.lines]
  refine List.IsInfix.trans ?_ (List.prefix_append _ _).isInfix
  refine List.IsInfix.trans ?_ (List.prefix_append _ _).isInfix
  exact ((List.suffix_cons _ _).isInfix.trans hspaced).trans (List.suffix_cons _ _).isInfix

theorem exists_classText_eq (hmodel : model ∈ resource.models.values) (docs : Bool)
    (name : String) :
    ∃ front back, classText false docs name resource =
      front ++ interfaceText false model ++ back := by
  obtain ⟨front, back, hlines⟩ := infix_classOf hmodel docs name
  exact ⟨unlines front, unlines back, by
    rw [classText, ← hlines, unlines_append, unlines_append, interfaceText]⟩

/-- The last draft of a run that leads where a path does. -/
def lastAt (tree : FileTree) (path : Path) (list : List Draft) : Option Draft :=
  list.reverse.find? fun draft => tree.placeOf draft.1 = tree.placeOf path

theorem exists_of_lastAt (h : lastAt tree path list = some draft) :
    ∃ front back, list = front ++ draft :: back ∧ tree.placeOf draft.1 = tree.placeOf path ∧
      ∀ other ∈ back, tree.placeOf other.1 ≠ tree.placeOf path := by
  obtain ⟨hplace, front, back, hsplit, hnone⟩ := List.find?_eq_some_iff_append.mp h
  have hlist : list = back.reverse ++ draft :: front.reverse := by
    rw [← List.reverse_reverse list, hsplit]
    simp
  refine ⟨back.reverse, front.reverse, hlist, by simpa using hplace, ?_⟩
  intro other hother
  have hnot := hnone other (List.mem_reverse.mp hother)
  simpa using hnot

theorem exists_lastAt (tree : FileTree) (hmem : draft ∈ list) :
    ∃ last, lastAt tree draft.1 list = some last := by
  apply Option.isSome_iff_exists.mp
  rw [lastAt, List.find?_isSome]
  exact ⟨draft, List.mem_reverse.mpr hmem, by simp⟩

/-- Drafts that come earlier do not matter once a draft leads there. -/
theorem lastAt_append (tree : FileTree) (front : List Draft) (hmem : draft ∈ list) :
    lastAt tree draft.1 (front ++ list) = lastAt tree draft.1 list := by
  obtain ⟨last, hlast⟩ := exists_lastAt tree hmem
  rw [hlast, lastAt, List.reverse_append, List.find?_append]
  rw [lastAt] at hlast
  rw [hlast, Option.some_or]

/-- At the end of a run the path of a draft reads the text of the last one that leads there. -/
theorem read_lastAt {last : FileTree} (h : Writes list tree last)
    (houtput : ∀ draft ∈ list, IsOutput draft.1) (hmem : draft ∈ list) {final : Draft}
    (hfinal : lastAt tree draft.1 list = some final) :
    last.read draft.1 = .ok final.2.toUTF8 := by
  obtain ⟨front, back, hlist, hplace, hlast⟩ := exists_of_lastAt hfinal
  have hread : last.read final.1 = .ok final.2.toUTF8 := by
    rw [hlist] at h
    refine h.read_eq (houtput final ?_) ?_
    · rw [hlist]
      exact List.mem_append_right _ (List.mem_cons_self ..)
    · intro other hother
      rw [hplace]
      exact hlast other hother
  obtain ⟨earlier, later, hsplit⟩ := List.append_of_mem hmem
  rw [hsplit] at h
  have hresolve := h.resolve
  rw [read_eq_ok_iff, h.grows.placeOf_eq, hplace] at hread
  rw [read_eq_ok_iff, h.grows.placeOf_eq]
  exact ⟨hresolve, hread.2⟩

def interfacePath (settings : Settings) (model : Model) : Path :=
  (interfacesDir settings).child (model.interfaceName ++ ".ts")

/-- What becomes of the file of a model of a resource in a run that gives interfaces files of
their own: it is written with the declaration that would stand inside the file of the class, and
at the end it has the text of the last file that leads to its place. -/
structure Kept (settings : Settings) (resources : List Resource) (world after : World)
    (resource : Resource) (model : Model) : Prop where
  drafted : (interfacePath settings model, interfaceText true model) ∈ drafts settings resources
  shows_own : Shows (interfaceText true model) model
  inline : ∃ front back, classText false settings.docs (Naming.className resource) resource =
    front ++ interfaceText false model ++ back
  read_last : ∃ final,
    lastAt world.files (interfacePath settings model) (drafts settings resources) = some final ∧
      after.files.read (interfacePath settings model) = .ok final.2.toUTF8
  shows_last : ∀ front back, drafts settings resources =
      front ++ (interfacePath settings model, interfaceText true model) :: back →
    (∀ other ∈ back, world.files.placeOf other.1 =
      world.files.placeOf (interfacePath settings model) → Shows other.2 model) →
    ∃ text, Shows text model ∧
      after.files.read (interfacePath settings model) = .ok text.toUTF8

theorem mem_drafts_of_split (hsplit : settings.splitInterfaces = true)
    (hresource : resource ∈ resources) (hmodel : model ∈ resource.models.values) :
    (interfacePath settings model, interfaceText true model) ∈ drafts settings resources := by
  have hdraft : interfaceDraft settings model =
      (interfacePath settings model, interfaceText true model) := by
    rw [interfaceDraft, hsplit, interfacePath]
  have hinterface : interfaceDraft settings model ∈ splitDrafts settings resource := by
    rw [splitDrafts, if_pos hsplit, interfaceDrafts]
    exact List.mem_append_left _ (List.mem_map_of_mem hmodel)
  rw [← hdraft, drafts]
  refine List.mem_cons_of_mem _ (List.mem_append_left _ ?_)
  exact List.mem_flatMap.mpr ⟨resource, hresource, List.mem_append_right _ hinterface⟩

theorem kept_of_writes (hsplit : settings.splitInterfaces = true)
    (hwrites : Writes (drafts settings resources) world.files after.files)
    (hresource : resource ∈ resources) (hmodel : model ∈ resource.models.values) :
    Kept settings resources world after resource model := by
  have hmem := mem_drafts_of_split hsplit hresource hmodel
  have hread : ∀ {final}, lastAt world.files (interfacePath settings model)
      (drafts settings resources) = some final →
        after.files.read (interfacePath settings model) = .ok final.2.toUTF8 :=
    fun hfinal => read_lastAt hwrites (fun _ => isOutput_of_mem_drafts) hmem hfinal
  have hown := shows_interfaceText true model
  refine ⟨hmem, hown, exists_classText_eq hmodel _ _, ?_, ?_⟩
  · obtain ⟨final, hfinal⟩ := exists_lastAt world.files hmem
    exact ⟨final, hfinal, hread hfinal⟩
  · intro front back hsplits hback
    have hself : (interfacePath settings model, interfaceText true model) ∈
        (interfacePath settings model, interfaceText true model) :: back := List.mem_cons_self ..
    obtain ⟨final, hfinal⟩ := exists_lastAt world.files hself
    have hwhole := hfinal
    rw [← lastAt_append world.files front hself, ← hsplits] at hwhole
    refine ⟨final.2, ?_, hread hwhole⟩
    obtain ⟨_, _, hlist, hplace, -⟩ := exists_of_lastAt hfinal
    have hlast : final ∈ (interfacePath settings model, interfaceText true model) :: back := by
      rw [hlist]
      exact List.mem_append_right _ (List.mem_cons_self ..)
    rcases List.mem_cons.mp hlast with rfl | hlater
    · exact hown
    · exact hback final hlater hplace

/-- When a run with files for interfaces ends well, the file of each model of each resource has
the text of the last file of the run that leads to its place. As long as the later ones declare
the same, it shows the declaration that would stand inside the file of the class. -/
theorem split_files_keep_last {paths : List Path} (hsplit : settings.splitInterfaces = true)
    (h : Ends (runWith settings cache client) world (.ok paths) after) :
    ∃ resources, Reads settings cache client world resources ∧
      ∀ resource ∈ resources, ∀ model ∈ resource.models.values,
        Kept settings resources world after resource model := by
  obtain ⟨resources, hreads, -, hwrites, -⟩ := ends_runWith_ok h
  exact ⟨resources, hreads, fun _ hresource _ => kept_of_writes hsplit hwrites hresource⟩

def readAll (settings : Settings) (cache : Path) (client : Web.Client) : Run (List Resource) := do
  let _ ← prepare settings
  let listing ← Fetch.listing cache client settings.url
  let found ← writeResources settings cache client listing listing.apis
  return found.2

/-- Without a class for all resources nothing is written after them. -/
theorem ends_runWith_of_readAll (hnone : settings.groupClass = "")
    (h : Ends (readAll settings cache client) world (.ok resources) after) :
    Reads settings cache client world resources ∧ ∃ paths last,
      Ends (runWith settings cache client) world (.ok paths) last ∧ last.files = after.files := by
  rw [readAll, ends_bind_ok_iff] at h
  obtain ⟨base, prepared, hprepare, h⟩ := h
  rw [ends_bind_ok_iff] at h
  obtain ⟨listing, listed, hlisting, h⟩ := h
  rw [ends_bind_ok_iff] at h
  obtain ⟨⟨written, found⟩, wrote, hresources, h⟩ := h
  obtain ⟨heq, rfl⟩ := ends_pure_iff.mp h
  cases heq
  have hgroup : Ends (writeGroup settings found) after (.ok []) after := by
    rw [writeGroup, if_pos hnone]
    exact ends_pure_iff.mpr ⟨rfl, rfl⟩
  have hreads : Reads settings cache client world found :=
    ⟨base, prepared, listing, listed, written, after, hprepare, hlisting, hresources⟩
  have hends := ends_runWith_iff.mpr ⟨base, prepared, listing, listed, written, found, after, [],
    after, hprepare, hlisting, hresources, hgroup, rfl, rfl⟩
  exact ⟨hreads, _, _, hends, rfl⟩

/-- The listing and the two resources of a service, each with a model of the same name. -/
def petsWorld : World where
  files := ⟨[], ⟨[(["interfaces"], .directory),
    (["a"], .file "\x7b\"apis\":[\x7b\"path\":\"b\"\x7d,\x7b\"path\":\"c\"\x7d]\x7d".toUTF8),
    (["ab"], .file "\x7b\"models\":\x7b\"\":\x7b\"id\":\"Pet\"\x7d\x7d\x7d".toUTF8),
    (["ac"], .file ("\x7b\"models\":\x7b\"\":\x7b\"id\":\"Pet\"," ++
      "\"properties\":\x7b\"x\":\x7b\x7d\x7d\x7d\x7d\x7d").toUTF8)], by decide⟩⟩
  server := fun _ _ => .failed .connectError ""

def petsSettings : Settings where
  url := "a"
  dest := ⟨.here, []⟩
  cacheDir := ⟨.here, []⟩
  splitInterfaces := true

def firstPet : String := "export interface IPet \x7b\n\x7d\n"

def secondPet : String := "export interface IPet \x7b\n  x?: unknown;\n\x7d\n"

def declarations (resources : List Resource) : List (List (String × String)) :=
  resources.map fun resource => resource.models.values.map fun model =>
    (model.interfaceName, interfaceText false model)

set_option maxRecDepth 10000 in
theorem ends_readAll_pets : ∃ resources after,
    Ends (readAll petsSettings petsSettings.cacheDir ⟨true⟩) petsWorld (.ok resources) after ∧
      declarations resources = [[("IPet", firstPet)], [("IPet", secondPet)]] ∧
        after.files.read ⟨.here, ["interfaces", "IPet.ts"]⟩ = .ok secondPet.toUTF8 := by
  have hending : (fun ending : Except Failure (List Resource) × World =>
      (ending.1.map declarations, ending.2.files.read ⟨.here, ["interfaces", "IPet.ts"]⟩))
      ((readAll petsSettings petsSettings.cacheDir ⟨true⟩).run.run petsWorld) =
        (.ok [[("IPet", firstPet)], [("IPet", secondPet)]], .ok secondPet.toUTF8) := by
    rw [readAll, prepare, writeBase_eq]
    generalize baseText = text
    cbv
  obtain ⟨hmodels, hread⟩ := Prod.mk.inj hending
  cases houtcome : ((readAll petsSettings petsSettings.cacheDir ⟨true⟩).run.run petsWorld).1 with
  | error failure =>
    rw [houtcome] at hmodels
    cases hmodels
  | ok resources =>
    rw [houtcome] at hmodels
    exact ⟨resources, _, Prod.ext houtcome rfl, Except.ok.inj hmodels, hread⟩

theorem split_files_of_pets_keep_last : ∃ paths after resources,
    petsSettings.splitInterfaces = true ∧
    Ends (runWith petsSettings petsSettings.cacheDir ⟨true⟩) petsWorld (.ok paths) after ∧
    Reads petsSettings petsSettings.cacheDir ⟨true⟩ petsWorld resources ∧
    ∀ resource ∈ resources, ∀ model ∈ resource.models.values,
      Kept petsSettings resources petsWorld after resource model := by
  obtain ⟨_, _, hends, -⟩ := ends_readAll_pets
  obtain ⟨-, paths, after, hrun, -⟩ := ends_runWith_of_readAll rfl hends
  obtain ⟨resources, hreads, hkept⟩ := split_files_keep_last rfl hrun
  exact ⟨paths, after, resources, rfl, hrun, hreads, hkept⟩

/-- At the end the file of the first model shows the second one. -/
theorem second_pet_replaces_first : ∃ paths after resources,
    Ends (runWith petsSettings petsSettings.cacheDir ⟨true⟩) petsWorld (.ok paths) after ∧
    Reads petsSettings petsSettings.cacheDir ⟨true⟩ petsWorld resources ∧
    ∃ resource ∈ resources, ∃ model ∈ resource.models.values, ∀ text,
      after.files.read (interfacePath petsSettings model) = .ok text.toUTF8 →
        ¬ Shows text model := by
  obtain ⟨resources, ended, hends, hmodels, hread⟩ := ends_readAll_pets
  obtain ⟨hreads, paths, after, hrun, hfiles⟩ := ends_runWith_of_readAll rfl hends
  obtain ⟨resource, _, rfl, hfirst, -⟩ := List.map_eq_cons_iff.mp hmodels
  obtain ⟨model, _, hvalues, hmodel, -⟩ := List.map_eq_cons_iff.mp hfirst
  obtain ⟨hname, htext⟩ := Prod.mk.inj hmodel
  have hpath : interfacePath petsSettings model = ⟨.here, ["interfaces", "IPet.ts"]⟩ := by
    rw [interfacePath, hname]
    decide
  refine ⟨paths, after, _, hrun, hreads, resource, List.mem_cons_self .., model, ?_, ?_⟩
  · rw [hvalues]
    exact List.mem_cons_self ..
  · intro text htexts hshows
    rw [hpath, hfiles, hread] at htexts
    obtain rfl := String.toByteArray_inj.mp (Except.ok.inj htexts)
    have hsuffix := suffix_of_shows hshows
    rw [htext] at hsuffix
    revert hsuffix
    decide

end ApiClientGen.SplitFiles
