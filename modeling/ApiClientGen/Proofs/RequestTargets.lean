import ApiClientGen.Declaration.ClientClass
import ApiClientGen.Proofs.MergeFold

/-!
Where the methods of a class send their requests: to the URL of the class with the path of the
method behind it. The class of several resources has the methods of all of them, each as it stands
in the class of its own resource, but the URL of the first one. So a method sends its requests
where it sends them there exactly if its resource has the URL of the first.
-/
namespace ApiClientGen.RequestTargets

open Declaration MergeFold MergedResource Text

variable {split docs : Bool} {name : String} {resource merged : Resource}
  {resources : List Resource} {target : String × Operation}

/-- How the URL of a class is read: as the class hands it to the base class, or as the base class
keeps it, without the slashes at its end. -/
inductive UrlReading
  | given
  | kept
  deriving DecidableEq

def UrlReading.read : UrlReading → String → String
  | given, url => url
  | kept, url => String.ofList (url.toList.reverse.dropWhile (· == '/')).reverse

def fullTarget (reading : UrlReading) (file : ClientClass) (method : Method) : String :=
  reading.read file.basePath ++ method.path

/-- In a class of several resources a method is what it is in the class of its own resource, with
the same full target. -/
def KeepsTarget (reading : UrlReading) (grouped own : ClientClass) (method : Method) : Prop :=
  method ∈ grouped.methods ∧ fullTarget reading grouped method = fullTarget reading own method

def urlLine (url : String) : String :=
  "    super(\x7b url: '" ++ url ++ "', token \x7d);"

/-- The text of a class hands a URL to the base class and has a method behind that. -/
def Emits (text url : String) (method : Method) : Prop :=
  ∃ front middle back,
    text = unlines (front ++ urlLine url :: (middle ++ method.lines ++ back))

theorem exists_lines_classOf (split docs : Bool) (name : String) (resource : Resource) :
    ∃ front, (classOf split docs name resource).lines = front ++ urlLine resource.basePath ::
      "  \x7d" :: (((classOf split docs name resource).methods.flatMap fun method =>
        spaced method.lines) ++ ["\x7d"]) := by
  refine ⟨(classOf split docs name resource).surroundings.lines ++
    ([""] ++ commentLines "" (descriptionLine resource.description) ++
      ["export class " ++ name ++ " extends Api \x7b", "  constructor(token: string) \x7b"]), ?_⟩
  rw [ClientClass.lines, ClientClass.body, List.append_assoc, List.append_assoc,
    List.append_assoc, List.append_assoc, List.append_assoc]
  rfl

theorem mem_methods_classOf (split docs : Bool) (name : String) (h : target ∈ resource.targets) :
    methodOf docs target.1 target.2 ∈ (classOf split docs name resource).methods :=
  List.mem_map_of_mem h

theorem emits_classText (split docs : Bool) (name : String) (h : target ∈ resource.targets) :
    Emits (classText split docs name resource) resource.basePath
      (methodOf docs target.1 target.2) := by
  obtain ⟨front, hlines⟩ := exists_lines_classOf split docs name resource
  obtain ⟨earlier, later, hmethods⟩ :=
    List.append_of_mem (mem_methods_classOf split docs name h)
  rw [hmethods, List.flatMap_append, List.flatMap_cons] at hlines
  refine ⟨front, "  \x7d" :: (earlier.flatMap fun method => spaced method.lines) ++ [""],
    (later.flatMap fun method => spaced method.lines) ++ ["\x7d"], ?_⟩
  rw [classText, hlines]
  simp [spaced]

/-- The class of several resources has the methods of each of them, one resource after the
other. -/
theorem methods_merged (h : Resource.merge? resources = some merged) (own : Resource → String) :
    (classOf split docs name merged).methods =
      resources.flatMap fun resource => (classOf split docs (own resource) resource).methods := by
  rw [classOf, targets_merged h, List.map_flatMap]
  rfl

/-- Merged resources have the URL of the first one. -/
theorem basePath_merged {first : Resource} {rest : List Resource}
    (h : Resource.merge? (first :: rest) = some merged) : merged.basePath = first.basePath := by
  obtain ⟨_, hfirst, hmerged⟩ := (mergesTo_foldl_absorb first rest).rest_eq
  cases h
  cases hfirst
  rw [hmerged]

theorem fullTarget_eq_iff (reading : UrlReading) (file other : ClientClass) (method : Method) :
    fullTarget reading file method = fullTarget reading other method ↔
      reading.read file.basePath = reading.read other.basePath := by
  rw [fullTarget, fullTarget, ← String.toList_inj, String.toList_append, String.toList_append,
    List.append_cancel_right_eq, String.toList_inj]

/-- The class of several resources has each method of their own classes, with the same lines and
so with the same HTTP method and path, and hands the URL of the first resource to the base class.
A method keeps its full target exactly if its resource has that URL; so all do exactly if every
resource with operations has it. -/
theorem grouped_target_kept_iff_url (first : Resource) (rest : List Resource) (split docs : Bool)
    (name : String) (own : Resource → String) :
    ∃ merged, Resource.merge? (first :: rest) = some merged ∧
      (classOf split docs name merged).methods = ((first :: rest).flatMap fun resource =>
        (classOf split docs (own resource) resource).methods) ∧
      (∀ resource ∈ first :: rest, ∀ target ∈ resource.targets,
        Emits (classText split docs (own resource) resource) resource.basePath
          (methodOf docs target.1 target.2) ∧
        Emits (classText split docs name merged) first.basePath
          (methodOf docs target.1 target.2) ∧
        ∀ reading, KeepsTarget reading (classOf split docs name merged)
            (classOf split docs (own resource) resource) (methodOf docs target.1 target.2) ↔
          reading.read resource.basePath = reading.read first.basePath) ∧
      ∀ reading, (∀ resource ∈ first :: rest,
          ∀ method ∈ (classOf split docs (own resource) resource).methods,
            KeepsTarget reading (classOf split docs name merged)
              (classOf split docs (own resource) resource) method) ↔
        ∀ resource ∈ first :: rest, resource.targets ≠ [] →
          reading.read resource.basePath = reading.read first.basePath := by
  obtain ⟨merged, hmerge⟩ := exists_merge? first rest
  have hmethods : ∀ own : Resource → String, (classOf split docs name merged).methods =
      (first :: rest).flatMap fun resource =>
        (classOf split docs (own resource) resource).methods :=
    methods_merged hmerge
  have hkept : ∀ resource ∈ first :: rest,
      ∀ method ∈ (classOf split docs (own resource) resource).methods, ∀ reading,
        KeepsTarget reading (classOf split docs name merged)
          (classOf split docs (own resource) resource) method ↔
            reading.read resource.basePath = reading.read first.basePath := by
    intro resource hresource method hmethod reading
    have hmem : method ∈ (classOf split docs name merged).methods := by
      rw [hmethods own]
      exact List.mem_flatMap.mpr ⟨resource, hresource, hmethod⟩
    rw [KeepsTarget, and_iff_right hmem, fullTarget_eq_iff, classOf, classOf,
      basePath_merged hmerge]
    exact eq_comm
  refine ⟨merged, hmerge, hmethods own, ?_, ?_⟩
  · intro resource hresource target htarget
    have hmerged : target ∈ merged.targets := by
      rw [targets_merged hmerge]
      exact List.mem_flatMap.mpr ⟨resource, hresource, htarget⟩
    have hgrouped := emits_classText split docs name hmerged
    rw [basePath_merged hmerge] at hgrouped
    exact ⟨emits_classText split docs (own resource) htarget, hgrouped,
      hkept resource hresource _ (mem_methods_classOf split docs (own resource) htarget)⟩
  · intro reading
    constructor
    · intro hall resource hresource hsome
      obtain ⟨target, htarget⟩ := List.exists_mem_of_ne_nil _ hsome
      have hmethod := mem_methods_classOf split docs (own resource) htarget
      exact (hkept resource hresource _ hmethod reading).mp (hall resource hresource _ hmethod)
    · intro hall resource hresource method hmethod
      refine (hkept resource hresource method hmethod reading).mpr (hall resource hresource ?_)
      rintro hnone
      rw [classOf, hnone] at hmethod
      cases hmethod

def resourceAt (url nickname : String) : Resource where
  basePath := url
  apis := [{ path := "/x", operations := [{ method := "GET", nickname := nickname }] }]

/-- Two URLs that differ in a slash at the end: a method of the second resource keeps its full
target as the base class reads it, but not as it is written. -/
theorem slash_target_kept_by_base : ∃ merged,
    Resource.merge? [resourceAt "http://one" "get", resourceAt "http://one/" "list"] =
      some merged ∧
    ∃ target ∈ (resourceAt "http://one/" "list").targets,
      ∀ reading, KeepsTarget reading (classOf false true "Group" merged)
        (classOf false true "Own" (resourceAt "http://one/" "list"))
        (methodOf true target.1 target.2) ↔ reading = .kept := by
  obtain ⟨merged, hmerge, -, hemits, -⟩ := grouped_target_kept_iff_url
    (resourceAt "http://one" "get") [resourceAt "http://one/" "list"] false true "Group"
    fun _ => "Own"
  have htarget : ("/x", ({ method := "GET", nickname := "list" } : Operation)) ∈
      (resourceAt "http://one/" "list").targets := List.mem_singleton.mpr rfl
  obtain ⟨-, -, hkept⟩ := hemits _ (by simp) _ htarget
  refine ⟨merged, hmerge, _, htarget, fun reading => (hkept reading).trans ?_⟩
  cases reading <;> decide

/-- Resources with different URLs: no method of the class of both has the full target that the
operation of the second one has in its own class. -/
theorem grouped_target_leaves_own_url : ∃ merged,
    Resource.merge? [{ basePath := "http://one" }, resourceAt "http://two" "get"] = some merged ∧
    ∃ target ∈ (resourceAt "http://two" "get").targets, ∀ reading,
      ∀ emitted ∈ (classOf false true "Group" merged).methods,
        fullTarget reading (classOf false true "Group" merged) emitted ≠
          fullTarget reading (classOf false true "X" (resourceAt "http://two" "get"))
            (methodOf true target.1 target.2) := by
  refine ⟨_, rfl, _, List.mem_singleton.mpr rfl, fun reading emitted hemitted => ?_⟩
  obtain rfl := List.mem_singleton.mp hemitted
  rw [ne_eq, fullTarget_eq_iff]
  cases reading <;> decide

end ApiClientGen.RequestTargets
