import ApiClientGen.Proofs.CaseForms
import ApiClientGen.Proofs.MergedResource
import ApiClientGen.Proofs.OfflineRun
import ApiClientGen.Proofs.TypeForm

/-!
What each generated file shows at the end of a run. A file is made from the base class, from a
class of a resource, from a model or from an operation, and this source gives it its name. Of the
sources of one name the last one counts. The models that count are those of the merged resource,
and so are the operations: a file replaces the one that is there just as a model replaces that of
its id.
-/
namespace ApiClientGen.FinalFiles

open Declaration FilePlaces Generate MergedResource OutputFiles OutputNames Run

variable {settings : Settings} {resources : List Resource} {resource merged : Resource}
  {model : Model} {operation : Operation} {world after : World} {id : String}

/-- What a generated file is made from. -/
inductive Source
  | base
  | ofClass (name : String) (resource : Resource)
  | ofModel (model : Model)
  | ofOperation (operation : Operation)

namespace Source

def name : Source → FileName
  | base => .ofClass "Api"
  | ofClass name _ => .ofClass name
  | ofModel model => .ofInterface model.interfaceName
  | ofOperation operation => .ofInterface operation.optionsName

def text (settings : Settings) : Source → String
  | base => baseText
  | ofClass name resource => classText settings.splitInterfaces settings.docs name resource
  | ofModel model => interfaceText settings.splitInterfaces model
  | ofOperation operation => optionsText settings.splitInterfaces operation

def draft (settings : Settings) (source : Source) : Draft :=
  (source.name.path settings, source.text settings)

def isModel : Source → Bool
  | ofModel _ => true
  | _ => false

def isOperation : Source → Bool
  | ofOperation _ => true
  | _ => false

end Source

/-- The source of the class of a single resource, unless all resources share one. -/
def ownSources (settings : Settings) (resource : Resource) : List Source :=
  if settings.groupClass = "" then [.ofClass (Naming.className resource) resource] else []

def splitSources (settings : Settings) (resource : Resource) : List Source :=
  if settings.splitInterfaces then
    resource.models.values.map .ofModel ++ resource.operations.map .ofOperation
  else []

/-- The source of the class that all resources share, if one is asked for. -/
def groupSources (settings : Settings) (resources : List Resource) : List Source :=
  if settings.groupClass = "" then []
  else ((Resource.merge? resources).map (.ofClass settings.groupClass)).toList

def sources (settings : Settings) (resources : List Resource) : List Source :=
  .base :: (resources.flatMap (fun resource =>
    ownSources settings resource ++ splitSources settings resource) ++
      groupSources settings resources)

theorem drafts_eq (settings : Settings) (resources : List Resource) :
    drafts settings resources = (sources settings resources).map (Source.draft settings) := by
  have hresource : ∀ resource, resourceDrafts settings resource =
      (ownSources settings resource ++ splitSources settings resource).map
        (Source.draft settings) := by
    intro resource
    rw [resourceDrafts, ownDrafts, splitDrafts, ownSources, splitSources, List.map_append]
    congr 1
    · split <;> rfl
    · split
      · rw [interfaceDrafts, List.map_append, List.map_map, List.map_map]
        rfl
      · rfl
  have hgroup : groupDrafts settings resources =
      (groupSources settings resources).map (Source.draft settings) := by
    rw [groupDrafts, groupSources]
    split
    · rfl
    · cases Resource.merge? resources <;> rfl
  rw [drafts, sources, List.map_cons, List.map_append, List.map_flatMap, hgroup,
    funext hresource]
  rfl

theorem names_eq (settings : Settings) (resources : List Resource) :
    (sources settings resources).map Source.name = fileNames settings resources := by
  have hresource : ∀ resource, resourceNames settings resource =
      (ownSources settings resource ++ splitSources settings resource).map Source.name := by
    intro resource
    rw [resourceNames, ownSources, splitSources, List.map_append]
    congr 1
    · split <;> rfl
    · split
      · rw [List.map_append, List.map_map, List.map_map]
        rfl
      · rfl
  have hgroup : (groupSources settings resources).map Source.name =
      if settings.groupClass = "" then []
      else ((Resource.merge? resources).map fun _ => .ofClass settings.groupClass).toList := by
    rw [groupSources]
    split
    · rfl
    · cases Resource.merge? resources <;> rfl
  rw [sources, fileNames, List.map_cons, List.map_append, List.map_flatMap, hgroup,
    funext hresource]
  rfl

section Last

variable {name : FileName} {source : Source} {list : List Source}

def lastNamed (name : FileName) (list : List Source) : Option Source :=
  list.reverse.find? fun source => source.name = name

theorem name_of_lastNamed (h : lastNamed name list = some source) : source.name = name := by
  simpa using List.find?_some h

theorem mem_of_lastNamed (h : lastNamed name list = some source) : source ∈ list :=
  List.mem_reverse.mp (List.mem_of_find?_eq_some h)

theorem exists_lastNamed (h : source ∈ list) :
    ∃ last, lastNamed source.name list = some last := by
  apply Option.isSome_iff_exists.mp
  rw [lastNamed, List.find?_isSome]
  exact ⟨source, List.mem_reverse.mpr h, by simp⟩

theorem exists_of_lastNamed (h : lastNamed name list = some source) :
    ∃ front back, list = front ++ source :: back ∧ ∀ other ∈ back, other.name ≠ name := by
  obtain ⟨-, front, back, hsplit, hnone⟩ := List.find?_eq_some_iff_append.mp h
  refine ⟨back.reverse, front.reverse, ?_, ?_⟩
  · rw [← List.reverse_reverse list, hsplit]
    simp
  · intro other hother
    simpa using hnone other (List.mem_reverse.mp hother)

theorem lastNamed_append (name : FileName) (front back : List Source) :
    lastNamed name (front ++ back) = (lastNamed name back).or (lastNamed name front) := by
  rw [lastNamed, List.reverse_append, List.find?_append]
  rfl

/-- The last source of a name is also the last one among those of its kind. -/
theorem lastNamed_filter_of_eq_some {kind : Source → Bool}
    (h : lastNamed name list = some source) (hkind : kind source = true) :
    lastNamed name (list.filter kind) = some source := by
  obtain ⟨front, back, rfl, hback⟩ := exists_of_lastNamed h
  have hnone : lastNamed name (back.filter kind) = none := by
    rw [lastNamed, List.find?_eq_none]
    intro other hother
    simpa using hback other (List.mem_of_mem_filter (List.mem_reverse.mp hother))
  have hself : lastNamed name [source] = some source := by
    simp [lastNamed, name_of_lastNamed h]
  rw [List.filter_append, List.filter_cons, if_pos hkind, lastNamed_append,
    ← List.singleton_append, lastNamed_append, hnone, Option.none_or, hself, Option.some_or]

/-- A name that only sources of one kind have. -/
theorem lastNamed_filter_of_forall {kind : Source → Bool}
    (h : ∀ source ∈ list, source.name = name → kind source = true) :
    lastNamed name (list.filter kind) = lastNamed name list := by
  cases hlast : lastNamed name list with
  | some source =>
    exact lastNamed_filter_of_eq_some hlast (h source (mem_of_lastNamed hlast)
      (name_of_lastNamed hlast))
  | none =>
    rw [lastNamed, List.find?_eq_none] at hlast ⊢
    intro other hother
    exact hlast other (List.mem_reverse.mpr (List.mem_of_mem_filter (List.mem_reverse.mp hother)))

/-- The last source of a name decides what the file of that name holds at the end. -/
theorem read_lastNamed (hplain : PlainNames settings resources)
    (hwrites : Writes (drafts settings resources) world.files after.files)
    (h : lastNamed name (sources settings resources) = some source) :
    after.files.read (name.path settings) = .ok (source.text settings).toUTF8 := by
  have hname := name_of_lastNamed h
  obtain ⟨front, back, hsplit, hback⟩ := exists_of_lastNamed h
  have hplainNames : ∀ other ∈ sources settings resources, other.name.Plain := by
    intro other hother
    apply hplain.plain
    rw [← names_eq]
    exact List.mem_map_of_mem hother
  have hdraft : source.draft settings ∈ drafts settings resources := by
    rw [drafts_eq]
    exact List.mem_map_of_mem (mem_of_lastNamed h)
  have houtput := isOutput_of_mem_drafts hdraft
  rw [drafts_eq, hsplit, List.map_append, List.map_cons] at hwrites
  rw [← hname]
  refine hwrites.read_eq houtput ?_
  intro draft hdraft hplace
  obtain ⟨other, hother, rfl⟩ := List.mem_map.mp hdraft
  apply hback other hother
  rw [← hname]
  refine eq_of_placeOf_eq world.files (hplainNames other ?_) ?_ hplace
  · rw [hsplit]
    exact List.mem_append_right _ (List.mem_cons_of_mem _ hother)
  · exact hplainNames source (mem_of_lastNamed h)

end Last

section Merged

/-- Resources in which every model is kept under its id. -/
def Keyed (resources : List Resource) : Prop :=
  ∀ resource ∈ resources, ∀ entry ∈ resource.models.entries, entry.2.id = some entry.1

theorem Keyed.id_eq (h : Keyed resources) (hresource : resource ∈ resources)
    (hfind : resource.models.find? id = some model) : model.id = some id :=
  h resource hresource (id, model) (Entries.mem_of_find?_eq_some hfind)

/-- Distinct ids give distinct names, also when one of them is empty. -/
theorem eq_of_interfaceName_eq {first second : String}
    (h : Naming.interfaceName (some first) = Naming.interfaceName (some second)) :
    first = second := by
  by_cases hsecond : second = ""
  · by_cases hfirst : first = ""
    · rw [hfirst, hsecond]
    · have hempty := Naming.nonempty?_of_interfaceName_eq hfirst h.symm
      rw [nonempty?_eq_some_iff] at hempty
      exact (Option.some.inj hempty.1).symm
  · have hfound := Naming.nonempty?_of_interfaceName_eq hsecond h
    rw [nonempty?_eq_some_iff] at hfound
    exact Option.some.inj hfound.1

theorem keyed_clinics : Keyed OfflineRun.clinics := by
  rw [Keyed, OfflineRun.clinics, List.forall_mem_cons, List.forall_mem_singleton]
  decide

def interfaceFile (id : String) : FileName :=
  .ofInterface (Naming.interfaceName (some id))

/-- Under its id a model is found by its name. -/
theorem lastNamed_models {entries : List (String × Model)}
    (hnodup : (entries.map Prod.fst).Nodup) 
    (hkeyed : ∀ entry ∈ entries, entry.2.id = some entry.1) (id : String) :
    lastNamed (interfaceFile id) ((entries.map Prod.snd).map .ofModel) =
      (Entries.find? id entries).map .ofModel := by
  induction entries with
  | nil => rfl
  | cons entry rest ih =>
    rw [List.map_cons, List.nodup_cons] at hnodup
    obtain ⟨hentry, hrest⟩ := List.forall_mem_cons.mp hkeyed
    have hname : (Source.ofModel entry.2).name = interfaceFile entry.1 := by
      rw [Source.name, Model.interfaceName, hentry, interfaceFile]
    rw [List.map_cons, List.map_cons, ← List.singleton_append, lastNamed_append,
      ih hnodup.2 hrest, Entries.find?]
    by_cases hkey : entry.1 = id
    · -- no other entry has this key, and so none behind this one has its name
      have hnone : Entries.find? id rest = none := by
        rw [← Option.not_isSome_iff_eq_none, Entries.find?_isSome_iff, ← hkey]
        exact hnodup.1
      rw [if_pos hkey, hnone, ← hkey]
      simp [lastNamed, hname]
    · have hother : (Source.ofModel entry.2).name ≠ interfaceFile id := by
        rw [hname]
        intro heq
        exact hkey (eq_of_interfaceName_eq (FileName.ofInterface.inj heq))
      rw [if_neg hkey]
      simp [lastNamed, hother]

def modelSources (resources : List Resource) : List Source :=
  resources.flatMap fun resource => resource.models.values.map .ofModel

theorem lastNamed_modelSources (hkeyed : Keyed resources) (id : String) :
    lastNamed (interfaceFile id) (modelSources resources) =
      (lastModel? id resources).map .ofModel := by
  induction resources with
  | nil => rfl
  | cons resource rest ih =>
    obtain ⟨hresource, hrest⟩ := List.forall_mem_cons.mp hkeyed
    have hown : lastNamed (interfaceFile id) (resource.models.values.map .ofModel) =
        (resource.models.find? id).map .ofModel :=
      lastNamed_models resource.models.nodup hresource id
    rw [modelSources, List.flatMap_cons, lastNamed_append, hown, lastModel?, Option.map_or]
    rw [← ih hrest, modelSources]

/-- Sources that are no classes are those of the models and the operations. -/
theorem filter_sources (hsplit : settings.splitInterfaces = true) {kind : Source → Bool}
    (hbase : kind .base = false)
    (hclass : ∀ name resource, kind (.ofClass name resource) = false) :
    (sources settings resources).filter kind = resources.flatMap fun resource =>
      (resource.models.values.map Source.ofModel ++
        resource.operations.map Source.ofOperation).filter kind := by
  have hown : ∀ resource, (ownSources settings resource).filter kind = [] := by
    intro resource
    rw [ownSources]
    split
    · rw [List.filter_singleton, hclass]
      rfl
    · rfl
  have hgroup : (groupSources settings resources).filter kind = [] := by
    rw [groupSources]
    split
    · rfl
    · cases Resource.merge? resources with
      | none => rfl
      | some merged =>
        rw [Option.map_some, Option.toList_some, List.filter_singleton, hclass]
        rfl
  rw [sources, List.filter_cons, hbase, if_neg Bool.false_ne_true, List.filter_append, hgroup,
    List.append_nil, List.filter_flatMap]
  congr 1
  funext resource
  rw [List.filter_append, hown, splitSources, if_pos hsplit, List.nil_append]

theorem filter_isModel_sources (hsplit : settings.splitInterfaces = true) :
    (sources settings resources).filter Source.isModel = modelSources resources := by
  rw [filter_sources hsplit rfl fun _ _ => rfl, modelSources]
  congr 1
  funext resource
  simp [List.filter_map, Source.isModel, Function.comp_def]

theorem filter_isOperation_sources (hsplit : settings.splitInterfaces = true) :
    (sources settings resources).filter Source.isOperation =
      (resources.flatMap Resource.operations).map .ofOperation := by
  rw [filter_sources hsplit rfl fun _ _ => rfl, List.map_flatMap]
  congr 1
  funext resource
  simp [List.filter_map, Source.isOperation, Function.comp_def]

def lastOperation (name : String) (operations : List Operation) : Option Operation :=
  operations.reverse.find? fun operation => operation.optionsName = name

theorem lastNamed_operations (name : String) (operations : List Operation) :
    lastNamed (.ofInterface name) (operations.map .ofOperation) =
      (lastOperation name operations).map .ofOperation := by
  rw [lastNamed, ← List.map_reverse, List.find?_map, lastOperation]
  congr 2
  funext operation
  simp [Source.name]

theorem mem_of_ofModel (hsplit : settings.splitInterfaces = true)
    (h : .ofModel model ∈ sources settings resources) :
    ∃ resource ∈ resources, model ∈ resource.models.values := by
  have hmem : .ofModel model ∈ modelSources resources := by
    rw [← filter_isModel_sources hsplit]
    exact List.mem_filter.mpr ⟨h, rfl⟩
  obtain ⟨resource, hresource, hmodel⟩ := List.mem_flatMap.mp hmem
  obtain ⟨found, hfound, heq⟩ := List.mem_map.mp hmodel
  cases heq
  exact ⟨resource, hresource, hfound⟩

theorem mem_of_ofOperation (hsplit : settings.splitInterfaces = true)
    (h : .ofOperation operation ∈ sources settings resources) :
    operation ∈ resources.flatMap Resource.operations := by
  have hmem : .ofOperation operation ∈
      (resources.flatMap Resource.operations).map Source.ofOperation := by
    rw [← filter_isOperation_sources hsplit]
    exact List.mem_filter.mpr ⟨h, rfl⟩
  obtain ⟨found, hfound, heq⟩ := List.mem_map.mp hmem
  cases heq
  exact hfound

/-- What a model file shows at the end is the model that counts for its id. -/
theorem lastModel?_of_lastNamed (hsplit : settings.splitInterfaces = true)
    (hkeyed : Keyed resources) {name : FileName}
    (h : lastNamed name (sources settings resources) = some (.ofModel model)) :
    ∃ id, lastModel? id resources = some model := by
  obtain ⟨resource, hresource, hmodel⟩ := mem_of_ofModel hsplit (mem_of_lastNamed h)
  obtain ⟨id, hfind⟩ := (resource.models.mem_values_iff model).mp hmodel
  have hname : interfaceFile id = name := by
    rw [← name_of_lastNamed h, Source.name, Model.interfaceName, hkeyed.id_eq hresource hfind]
    rfl
  have hkind : (Source.ofModel model).isModel = true := rfl
  have hlast := lastNamed_filter_of_eq_some h hkind
  rw [filter_isModel_sources hsplit, ← hname, lastNamed_modelSources hkeyed] at hlast
  obtain ⟨found, hfound, heq⟩ := Option.map_eq_some_iff.mp hlast
  cases heq
  exact ⟨id, hfound⟩

/-- A name that no options have is that of the model that counts for its id. -/
theorem lastNamed_of_lastModel? (hsplit : settings.splitInterfaces = true)
    (hkeyed : Keyed resources)
    (hoptions : ∀ operation ∈ resources.flatMap Resource.operations,
      operation.optionsName ≠ Naming.interfaceName (some id))
    (h : lastModel? id resources = some model) :
    lastNamed (interfaceFile id) (sources settings resources) = some (.ofModel model) := by
  have hkind : ∀ source ∈ sources settings resources, source.name = interfaceFile id →
      source.isModel = true := by
    intro source hsource hname
    cases source with
    | base => cases hname
    | ofClass => cases hname
    | ofModel => rfl
    | ofOperation operation =>
      exact absurd (FileName.ofInterface.inj hname)
        (hoptions operation (mem_of_ofOperation hsplit hsource))
  rw [← lastNamed_filter_of_forall hkind, filter_isModel_sources hsplit,
    lastNamed_modelSources hkeyed, h]
  rfl

/-- A name that no model has is that of the last options of this name. -/
theorem lastNamed_of_lastOperation (hsplit : settings.splitInterfaces = true) {name : String}
    (hmodels : ∀ resource ∈ resources, ∀ model ∈ resource.models.values,
      model.interfaceName ≠ name)
    (h : lastOperation name (resources.flatMap Resource.operations) = some operation) :
    lastNamed (.ofInterface name) (sources settings resources) =
      some (.ofOperation operation) := by
  have hkind : ∀ source ∈ sources settings resources, source.name = .ofInterface name →
      source.isOperation = true := by
    intro source hsource hname
    cases source with
    | base => cases hname
    | ofClass => cases hname
    | ofOperation => rfl
    | ofModel model =>
      obtain ⟨resource, hresource, hmodel⟩ := mem_of_ofModel hsplit hsource
      exact absurd (FileName.ofInterface.inj hname) (hmodels resource hresource model hmodel)
  rw [← lastNamed_filter_of_forall hkind, filter_isOperation_sources hsplit,
    lastNamed_operations, h]
  rfl

end Merged

section Slashes

/-- Resources without a slash in the ids of their models and the nicknames of their operations. -/
structure SlashFree (resources : List Resource) : Prop where
  ids : ∀ resource ∈ resources, ∀ id ∈ resource.models.keys, '/' ∉ id.toList
  nicknames : ∀ resource ∈ resources, ∀ operation ∈ resource.operations,
    '/' ∉ operation.nickname.toList

theorem slashFree_clinics : SlashFree OfflineRun.clinics := by
  refine ⟨?_, ?_⟩
  · rw [OfflineRun.clinics, List.forall_mem_cons, List.forall_mem_singleton]
    decide
  · rw [OfflineRun.clinics, List.forall_mem_cons, List.forall_mem_singleton]
    decide

theorem slash_not_mem_interfaceName (h : '/' ∉ id.toList) :
    '/' ∉ (Naming.interfaceName (some id)).toList := by
  rw [Naming.interfaceName]
  split
  · rename_i found hfound
    obtain ⟨heq, -⟩ := (nonempty?_eq_some_iff _ _).mp hfound
    cases heq
    rw [String.toList_append, List.mem_append]
    rintro (hfirst | hid)
    · exact absurd hfirst (by decide)
    · exact h hid
  · decide

theorem slash_not_mem_optionsName (h : '/' ∉ operation.nickname.toList) :
    '/' ∉ operation.optionsName.toList := by
  rw [Operation.optionsName, String.toList_append, String.toList_append, List.mem_append,
    List.mem_append]
  rintro ((hfirst | hname) | hlast)
  · exact absurd hfirst (by decide)
  · rw [String.toList_ofList] at hname
    exact h (Text.IsSign.mem_of_mem_upperFirst (by decide) hname)
  · exact absurd hlast (by decide)

theorem plainNames (hgroup : '/' ∉ settings.groupClass.toList) (hkeyed : Keyed resources)
    (h : SlashFree resources) : PlainNames settings resources := by
  refine ⟨hgroup, ?_, ?_⟩
  · intro resource hresource model hmodel
    obtain ⟨id, hfind⟩ := (resource.models.mem_values_iff model).mp hmodel
    rw [Model.interfaceName, hkeyed.id_eq hresource hfind]
    apply slash_not_mem_interfaceName
    apply h.ids resource hresource
    rw [← OrderedMap.find?_isSome_iff, hfind]
    rfl
  · intro resource hresource operation hoperation
    exact slash_not_mem_optionsName (h.nicknames resource hresource operation hoperation)

end Slashes

section Run

variable {cache : Path} {client : Web.Client} {paths : List Path} {others : List Resource}

/-- A run reads the same resources whenever it is made in the same world. -/
theorem eq_of_reads (h : Reads settings cache client world resources)
    (hother : Reads settings cache client world others) : resources = others := by
  obtain ⟨base, prepared, listing, listed, written, wrote, hprepare, hlisting, hresources⟩ := h
  obtain ⟨_, _, _, _, _, _, hprepare', hlisting', hresources'⟩ := hother
  obtain ⟨-, rfl⟩ := hprepare.unique hprepare'
  obtain ⟨heq, rfl⟩ := hlisting.unique hlisting'
  cases heq
  obtain ⟨heq, -⟩ := hresources.unique hresources'
  cases heq
  rfl

theorem writes_of_run (hreads : Reads settings cache client world resources)
    (h : Ends (runWith settings cache client) world (.ok paths) after) :
    paths = (sources settings resources).map (fun source => source.name.path settings) ∧
      Writes (drafts settings resources) world.files after.files := by
  obtain ⟨found, hfound, rfl, hwrites, -⟩ := ends_runWith_ok h
  obtain rfl := eq_of_reads hreads hfound
  refine ⟨?_, hwrites⟩
  rw [drafts_eq, List.map_map]
  rfl

/-- A run that writes a class of all resources has resources to merge. -/
theorem exists_merge_of_run (hreads : Reads settings cache client world resources)
    (h : Ends (runWith settings cache client) world (.ok paths) after)
    (hgroup : settings.groupClass ≠ "") :
    ∃ merged, Resource.merge? resources = some merged := by
  obtain ⟨base, prepared, listing, listed, written, found, wrote, grouped, last, hprepare,
    hlisting, hresources, hmerged, -, -⟩ := ends_runWith_iff.mp h
  obtain rfl : resources = found :=
    eq_of_reads hreads
      ⟨base, prepared, listing, listed, written, wrote, hprepare, hlisting, hresources⟩
  exact exists_merge_of_writeGroup hgroup hmerged

end Run

end ApiClientGen.FinalFiles
