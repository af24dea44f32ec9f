import ApiClientGen.Proofs.OutputNames

/-!
A class name is built segment by segment. Two paths with a slash between them give the name of the
one followed by the name of the other, so a segment that gives nothing may stand anywhere in a
path without a change to the name. The file of the class lies in the directory of all generated
files itself.
-/
namespace ApiClientGen.SegmentNames

open FilePlaces Generate Naming OutputNames Text

/-- A segment that gives nothing to the name: an empty one, the version of the api, or a
placeholder. -/
structure Silent (version : Option String) (segment : String) : Prop where
  single : '/' ∉ segment.toList
  passed : segment = "" ∨ version = some segment ∨ segment.toList.head? = some '\x7b'

/-- A path has a segment more than another, in front of it, behind it or inside. -/
inductive Inserted (segment : String) : String → String → Prop
  | front (path : String) : Inserted segment path (segment ++ "/" ++ path)
  | back (path : String) : Inserted segment path (path ++ "/" ++ segment)
  | inside (first second : String) :
      Inserted segment (first ++ "/" ++ second) (first ++ "/" ++ segment ++ "/" ++ second)

variable {path longer segment : String} {version : Option String}

theorem segments_append (first second : String) :
    segments (first ++ "/" ++ second) = segments first ++ segments second := by
  have hslash : "/".toList = ['/'] := rfl
  rw [segments, String.toList_append, String.toList_append, hslash, List.append_assoc,
    List.singleton_append]
  exact pieces_append_cut (· == '/') first.toList rfl second.toList

/-- A text without a slash is a path of one segment. -/
theorem segments_of_slash_not_mem (h : '/' ∉ segment.toList) :
    segments segment = [segment.toList] :=
  pieces_of_not_cut (· == '/') (not_cut_of_not_mem h)

theorem pathName_append (first second : String) (version : Option String) :
    pathName (first ++ "/" ++ second) version =
      pathName first version ++ pathName second version := by
  rw [pathName, segments_append, List.filter_append, List.flatMap_append]
  rfl

/-- Characters may also be left out after the segments are put together. -/
theorem pathName_eq_filter (path : String) (version : Option String) :
    pathName path version =
      (((segments path).filter (isNaming version)).flatMap titleChars).filter
        isIdentifierChar := by
  rw [List.filter_flatMap]
  rfl

theorem Silent.isNaming_eq_false (h : Silent version segment) :
    isNaming version segment.toList = false := by
  unfold isNaming
  obtain hempty | hversion | hplaceholder := h.passed
  · simp [hempty]
  · simp [hversion]
  · simp [hplaceholder]

theorem Silent.pathName_eq_nil (h : Silent version segment) : pathName segment version = [] := by
  rw [pathName, segments_of_slash_not_mem h.single, List.filter_singleton, h.isNaming_eq_false]
  rfl

theorem Inserted.pathName_eq (hinserted : Inserted segment path longer)
    (hsilent : Silent version segment) : pathName longer version = pathName path version := by
  have hnothing := hsilent.pathName_eq_nil
  cases hinserted with
  | front => rw [pathName_append, hnothing, List.nil_append]
  | back => rw [pathName_append, hnothing, List.append_nil]
  | inside first second =>
    rw [pathName_append, pathName_append, pathName_append, hnothing, List.append_nil]

theorem toList_className (resource : Resource) :
    (className resource).toList =
      if pathName (resource.resourcePath.getD "") resource.apiVersion = [] then rootName.toList
      else pathName (resource.resourcePath.getD "") resource.apiVersion := by
  unfold className
  split
  · rename_i hname
    rw [if_pos hname]
  · rename_i hname
    rw [if_neg hname, String.toList_ofList]

theorem placeOf_classFile (resource : Resource) (settings : Settings) (tree : FileTree) :
    tree.placeOf (classDraft settings (className resource) resource).1 =
      tree.placeOf settings.dest ++ [className resource ++ ".ts"] := by
  rw [classDraft_fst]
  exact placeOf_child tree settings.dest (plain_className resource).slash_not_mem
    (isPart_ts (className resource)) (ts_ne_points (className resource))

/-- The name of a path is put together from the names of its segments, before the name of the root
takes the place of an empty one. A segment that gives nothing may be inserted anywhere. The name
of a class is never empty and made of identifier characters, so its file lies in the directory of
all generated files. -/
theorem class_name_built_by_segments :
    (∀ path version, pathName path version =
      (((segments path).filter (isNaming version)).flatMap titleChars).filter isIdentifierChar) ∧
    (∀ first second version, pathName (first ++ "/" ++ second) version =
      pathName first version ++ pathName second version) ∧
    ∀ resource : Resource,
      (className resource).toList =
        (if pathName (resource.resourcePath.getD "") resource.apiVersion = [] then rootName.toList
        else pathName (resource.resourcePath.getD "") resource.apiVersion) ∧
      (∀ segment path longer, Silent resource.apiVersion segment → Inserted segment path longer →
        className { resource with resourcePath := some longer } =
          className { resource with resourcePath := some path }) ∧
      className resource ≠ "" ∧
      (∀ c ∈ (className resource).toList, isIdentifierChar c = true) ∧
      ∀ settings tree,
        FileTree.placeOf tree (classDraft settings (className resource) resource).1 =
          tree.placeOf settings.dest ++ [className resource ++ ".ts"] := by
  refine ⟨pathName_eq_filter, pathName_append, ?_⟩
  intro resource
  refine ⟨toList_className resource, ?_, className_ne_empty resource, ?_,
    placeOf_classFile resource⟩
  · intro segment path longer hsilent hinserted
    simp only [className, Option.getD_some, hinserted.pathName_eq hsilent]
  · intro c hc
    exact isIdentifierChar_of_mem_className hc

/-- The resource of a path with a version. -/
def versionedResource (path : String) : Resource where
  apiVersion := some "v1"
  resourcePath := some path

/-- The version and a placeholder in a path do not show in the name. -/
theorem version_and_placeholder_give_nothing :
    className (versionedResource "/v1/store/\x7bid\x7d/orders") =
        className (versionedResource "/store/orders") ∧
      className (versionedResource "/store/orders") = "StoreOrders" := by
  obtain ⟨-, hinsert, -⟩ := class_name_built_by_segments.2.2 (versionedResource "")
  have hversion := hinsert "v1" _ _ ⟨by decide, .inr (.inl rfl)⟩
    (.inside "" "store/\x7bid\x7d/orders")
  have hplaceholder := hinsert "\x7bid\x7d" _ _ ⟨by decide, .inr (.inr rfl)⟩
    (.inside "/store" "orders")
  exact ⟨hversion.trans hplaceholder, by cbv⟩

end ApiClientGen.SegmentNames
