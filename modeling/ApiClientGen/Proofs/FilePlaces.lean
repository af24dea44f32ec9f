import ApiClientGen.Cache
import ApiClientGen.Generate.Output
import ApiClientGen.Proofs.TreeGrowth

/-!
Where kept documents and generated files lie. A kept document lies in the cache directory under a
name without a point, and the name of a generated file ends in `.ts`; so no generated file is ever
written over a kept document.
-/
namespace ApiClientGen.FilePlaces

open FileTree Generate

variable {tree : FileTree} {path cache dest : Path} {url : String}

theorem not_mem_key {c : Char} (hsep : Cache.isSeparator c = true) (url : String) :
    c ∉ (Cache.key url).toList := by
  intro hmem
  rw [Cache.not_isSeparator_of_mem_key url c hmem] at hsep
  cases hsep

theorem isPart_key (hkey : Cache.key url ≠ "") : Path.isPart (Cache.key url).toList = true := by
  have hpoint : (Cache.key url).toList ≠ ['.'] := by
    intro heq
    exact not_mem_key rfl url (heq ▸ List.mem_singleton.mpr rfl : '.' ∈ (Cache.key url).toList)
  simp [Path.isPart, hkey, hpoint]

theorem key_ne_points (url : String) : Cache.key url ≠ ".." := by
  intro heq
  have hmem : '.' ∈ (Cache.key url).toList := by
    rw [heq]
    decide
  exact not_mem_key rfl url hmem

/-- A key has no point, and so it is no name of a file of the generated language. -/
theorem key_ne_ts (url stem : String) : Cache.key url ≠ stem ++ ".ts" := by
  intro hname
  have hmem : '.' ∈ (Cache.key url).toList := by
    rw [hname]
    simp
  exact not_mem_key rfl url hmem

theorem pathFor_eq (cache : Path) (hkey : Cache.key url ≠ "") :
    Cache.pathFor cache url = { cache with parts := cache.parts ++ [Cache.key url] } :=
  Path.child_of_isPart cache (not_mem_key rfl url) (isPart_key hkey)

/-- A URL with an empty key leads to the cache directory itself. -/
theorem pathFor_of_key_eq_empty (cache : Path) (hkey : Cache.key url = "") :
    Cache.pathFor cache url = cache := by
  have hempty : Path.ofString "" = ⟨.here, []⟩ := by decide
  rw [Cache.pathFor, Path.child, hkey, hempty, Path.join, if_pos rfl, List.append_nil]

theorem step_of_ne {place : FilePlace} {part : String} (h : part ≠ "..") :
    step place part = place ++ [part] :=
  if_neg h

theorem placeOf_child (tree : FileTree) (path : Path) {text : String}
    (hslash : '/' ∉ text.toList) (hpart : Path.isPart text.toList = true)
    (hpoints : text ≠ "..") :
    tree.placeOf (path.child text) = tree.placeOf path ++ [text] := by
  have hstart : tree.start (path.child text) = tree.start path := by
    rw [Path.child_of_isPart path hslash hpart]
    rfl
  rw [placeOf, hstart, Path.child_of_isPart path hslash hpart, List.foldl_append, List.foldl_cons,
    List.foldl_nil, step_of_ne hpoints]
  rfl

/-- The document of a URL is kept in the cache directory under its key. -/
theorem placeOf_pathFor (tree : FileTree) (cache : Path) (hkey : Cache.key url ≠ "") :
    tree.placeOf (Cache.pathFor cache url) = tree.placeOf cache ++ [Cache.key url] :=
  placeOf_child tree cache (not_mem_key rfl url) (isPart_key hkey) (key_ne_points url)

/-- Documents with different keys are kept at different places. -/
theorem placeOf_pathFor_ne (tree : FileTree) (cache : Path) {other : String}
    (hkey : Cache.key url ≠ "") (hne : Cache.key other ≠ Cache.key url) :
    tree.placeOf (Cache.pathFor cache other) ≠ tree.placeOf (Cache.pathFor cache url) := by
  rw [placeOf_pathFor tree cache hkey]
  intro heq
  by_cases hempty : Cache.key other = ""
  · rw [pathFor_of_key_eq_empty cache hempty] at heq
    simp at heq
  · rw [placeOf_pathFor tree cache hempty] at heq
    exact hne (by simpa using heq)

/-- A kept document is reached through the cache directory. -/
theorem resolve_pathFor_eq_ok_iff (hkey : Cache.key url ≠ "") :
    tree.resolve (Cache.pathFor cache url) = .ok (tree.placeOf cache ++ [Cache.key url]) ↔
      '\x00' ∉ (Cache.pathFor cache url).text.toList ∧
        (Cache.pathFor cache url).text.utf8ByteSize < pathLimit ∧
          (Cache.key url).utf8ByteSize ≤ nameLimit ∧
            tree.walk (tree.start cache) cache.parts = .ok (tree.placeOf cache) ∧
              tree.node? (tree.placeOf cache) = some .directory := by
  have hparts : (Cache.pathFor cache url).parts = cache.parts ++ [Cache.key url] := by
    rw [pathFor_eq cache hkey]
  have hstart : tree.start (Cache.pathFor cache url) = tree.start cache := by
    rw [pathFor_eq cache hkey]
    rfl
  rw [resolve_eq_ok_iff, hparts, hstart, walk_concat_eq_ok_iff]
  constructor
  · rintro ⟨hnul, hshort, middle, hwalk, hdir, hname, -⟩
    obtain rfl : middle = tree.placeOf cache := eq_foldl_of_walk hwalk
    exact ⟨hnul, hshort, hname, hwalk, hdir⟩
  · rintro ⟨hnul, hshort, hname, hwalk, hdir⟩
    refine ⟨hnul, hshort, tree.placeOf cache, hwalk, hdir, hname, ?_⟩
    rw [step_of_ne (key_ne_points url)]

/-- Where a document is kept the cache directory stands. -/
theorem directory_of_read {content : ByteArray} (hkey : Cache.key url ≠ "")
    (hread : tree.read (Cache.pathFor cache url) = .ok content) :
    tree.node? (tree.placeOf cache) = some .directory := by
  have hresolve := (read_eq_ok_iff.mp hread).1
  rw [placeOf_pathFor tree cache hkey, resolve_pathFor_eq_ok_iff hkey] at hresolve
  exact hresolve.2.2.2.2

/-- A path whose last part is the name of a file of the generated language. -/
def IsOutput (path : Path) : Prop :=
  ∃ front stem, path.parts = front ++ [stem ++ ".ts"]

theorem isOutput_child (dest : Path) (name : String) : IsOutput (dest.child (name ++ ".ts")) := by
  have hslash : '/' ∉ ".ts".toList := by decide
  obtain ⟨front, last, hparts⟩ :=
    Path.exists_partsOf_append name.toList hslash (by decide : 2 ≤ ".ts".toList.length)
  have hfurther :
      (Path.ofString (name ++ ".ts")).parts = front ++ [String.ofList last ++ ".ts"] := by
    rw [Path.ofString, String.toList_append, hparts, String.ofList_append, String.ofList_toList]
  rw [Path.child, Path.join]
  split
  · exact ⟨dest.parts ++ front, String.ofList last, by rw [hfurther, List.append_assoc]⟩
  · exact ⟨front, String.ofList last, hfurther⟩

theorem isOutput_base (dest : Path) : IsOutput (dest.child baseFile) :=
  isOutput_child dest "Api"

theorem isOutput_classDraft (settings : Settings) (name : String) (resource : Resource) :
    IsOutput (classDraft settings name resource).1 := by
  rw [classDraft_fst]
  exact isOutput_child settings.dest name

theorem isOutput_of_mem_interfaceDrafts {settings : Settings} {resource : Resource}
    {draft : Draft} (h : draft ∈ interfaceDrafts settings resource) : IsOutput draft.1 := by
  rw [interfaceDrafts, List.mem_append, List.mem_map, List.mem_map] at h
  rcases h with ⟨model, -, hdraft⟩ | ⟨operation, -, hdraft⟩
  · rw [← hdraft, interfaceDraft_fst]
    exact isOutput_child (interfacesDir settings) model.interfaceName
  · rw [← hdraft, optionsDraft_fst]
    exact isOutput_child (interfacesDir settings) operation.optionsName

/-- A place whose name is that of a file of the generated language. -/
def OutputPlace (place : FilePlace) : Prop :=
  ∃ front stem, place = front ++ [stem ++ ".ts"]

theorem ts_ne_points (stem : String) : stem ++ ".ts" ≠ ".." := by
  intro heq
  have hlength := congrArg String.length heq
  rw [String.length_append] at hlength
  have hts : ".ts".length = 3 := rfl
  have htwo : "..".length = 2 := rfl
  omega

theorem outputPlace_placeOf (tree : FileTree) (h : IsOutput path) :
    OutputPlace (tree.placeOf path) := by
  obtain ⟨front, stem, hparts⟩ := h
  refine ⟨front.foldl step (tree.start path), stem, ?_⟩
  rw [placeOf, hparts, List.foldl_append, List.foldl_cons, List.foldl_nil,
    step_of_ne (ts_ne_points stem)]

/-- No generated file lies where a document is kept. -/
theorem not_outputPlace_pathFor (tree : FileTree) (cache : Path) (hkey : Cache.key url ≠ "") :
    ¬ OutputPlace (tree.placeOf (Cache.pathFor cache url)) := by
  rintro ⟨front, stem, hplace⟩
  rw [placeOf_pathFor tree cache hkey] at hplace
  have hlast := congrArg List.getLast? hplace
  exact key_ne_ts url stem (by simpa using hlast)

theorem not_isOutput_pathFor (cache : Path) (hkey : Cache.key url ≠ "") :
    ¬ IsOutput (Cache.pathFor cache url) := by
  rintro ⟨front, stem, hparts⟩
  rw [pathFor_eq cache hkey] at hparts
  have hlast := congrArg List.getLast? hparts
  exact key_ne_ts url stem (by simpa using hlast)

end ApiClientGen.FilePlaces
