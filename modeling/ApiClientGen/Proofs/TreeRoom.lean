import ApiClientGen.Proofs.TreeGrowth

/-!
What succeeds in a tree that can still grow into a given one, its goal. Where the goal has a
directory one can be made, with those above it; where the goal has a file one can be written once
its directory is there. The tree can grow into its goal afterwards as well, so that the steps of
another way to the same goal do not get in each other's way.
-/
namespace ApiClientGen.TreeRoom

open FileTree

variable {tree goal : FileTree} {place last : FilePlace} {path : Path} {parts : List String}

/-- Parts that lead somewhere in the goal lead there already, or something on the way misses. -/
theorem walk_or_notFound (h : Grows Set.univ tree goal)
    (hwalk : goal.walk place parts = .ok last) :
    tree.walk place parts = .ok last ∨ tree.walk place parts = .error .notFound := by
  induction parts generalizing place with
  | nil => exact .inl hwalk
  | cons part rest ih =>
    rw [walk] at hwalk ⊢
    cases hnode : tree.node? place with
    | none => exact .inr rfl
    | some node =>
      cases node with
      | file content =>
        obtain ⟨found, hfile⟩ := h.file hnode
        rw [hfile] at hwalk
        cases hwalk
      | directory =>
        rw [h.directory hnode] at hwalk
        dsimp only at hwalk ⊢
        split at hwalk
        · cases hwalk
        · rename_i hshort
          rw [if_neg hshort]
          exact ih hwalk

theorem resolve_or_notFound (h : Grows Set.univ tree goal)
    (hresolve : goal.resolve path = .ok place) :
    tree.resolve path = .ok place ∨
      tree.resolve path = .error (.fault .notFound path.text) := by
  obtain ⟨hnul, hshort, hwalk⟩ := resolve_eq_ok_iff.mp hresolve
  have hstart : goal.start path = tree.start path := by
    rw [start, start, h.here_eq]
  rw [hstart] at hwalk
  rcases walk_or_notFound h hwalk with hfound | hmissing
  · exact .inl (resolve_eq_ok_iff.mpr ⟨hnul, hshort, hfound⟩)
  · refine .inr ?_
    rw [resolve, if_neg hnul, if_neg (Nat.not_le.mpr hshort), hmissing]
    rfl

section Parent

/-- Parts without the last one are shown as the start of all of them. -/
theorem exists_intercalate_eq_append (parts : List String) :
    ∃ more, String.intercalate "/" parts = String.intercalate "/" parts.dropLast ++ more := by
  induction parts with
  | nil => exact ⟨"", rfl⟩
  | cons part rest ih =>
    cases rest with
    | nil => exact ⟨part, by simp⟩
    | cons second rest =>
      obtain ⟨more, hmore⟩ := ih
      rw [String.intercalate_cons_of_ne_nil (List.cons_ne_nil second rest),
        List.dropLast_cons_cons]
      cases hfront : (second :: rest).dropLast with
      | nil => exact ⟨"/" ++ String.intercalate "/" (second :: rest), by
          rw [String.intercalate_singleton, String.append_assoc]⟩
      | cons head tail =>
        rw [hmore, hfront, String.intercalate_cons_of_ne_nil (List.cons_ne_nil head tail)]
        exact ⟨more, by rw [String.append_assoc, String.append_assoc, String.append_assoc]⟩

theorem text_parent (path : Path) :
    path.parent.text = "." ∨ ∃ more, path.text = path.parent.text ++ more := by
  obtain ⟨more, hmore⟩ := exists_intercalate_eq_append path.parts
  rw [Path.text, Path.text, Path.parent_anchor, Path.parent_parts, hmore]
  cases path.anchor with
  | here =>
    cases hfront : path.parts.dropLast with
    | nil => exact .inl rfl
    | cons head tail =>
      have hparts : path.parts ≠ [] := by
        intro hnone
        rw [hnone] at hfront
        cases hfront
      refine .inr ⟨more, ?_⟩
      simp [hparts]
  | root => exact .inr ⟨more, (String.append_assoc ..).symm⟩
  | doubleRoot => exact .inr ⟨more, (String.append_assoc ..).symm⟩

/-- A path leads only through a directory. -/
theorem isDirectory_parent (h : tree.resolve path = .ok place) (hparts : path.parts ≠ []) :
    tree.isDirectory path.parent = .ok true := by
  obtain ⟨hnul, hshort, hwalk⟩ := resolve_eq_ok_iff.mp h
  rw [← List.dropLast_concat_getLast hparts, walk_concat_eq_ok_iff] at hwalk
  obtain ⟨middle, hwalk, hdir, -⟩ := hwalk
  have hresolve : tree.resolve path.parent = .ok middle := by
    refine resolve_eq_ok_iff.mpr ⟨?_, ?_, hwalk⟩
    · rcases text_parent path with hpoint | ⟨more, hmore⟩
      · rw [hpoint]
        decide
      · rw [hmore, String.toList_append, List.mem_append, not_or] at hnul
        exact hnul.1
    · rcases text_parent path with hpoint | ⟨more, hmore⟩
      · rw [hpoint]
        decide
      · rw [hmore, String.utf8ByteSize_append] at hshort
        omega
  obtain rfl := eq_placeOf_of_resolve hresolve
  exact isDirectory_eq_true_iff.mpr ⟨hresolve, hdir⟩

/-- Once the directory is there, a path of the goal leads to its place. -/
theorem resolve_of_parent (h : Grows Set.univ tree goal)
    (hresolve : goal.resolve path = .ok place)
    (hparent : tree.isDirectory path.parent = .ok true) : tree.resolve path = .ok place := by
  rcases resolve_or_notFound h hresolve with hfound | hmissing
  · exact hfound
  obtain ⟨hnul, hshort, hwalk⟩ := resolve_eq_ok_iff.mp hresolve
  obtain ⟨hfront, hdir⟩ := isDirectory_eq_true_iff.mp hparent
  by_cases hparts : path.parts = []
  · refine resolve_eq_ok_iff.mpr ⟨hnul, hshort, ?_⟩
    rw [hparts] at hwalk ⊢
    have hstart : goal.start path = tree.start path := by
      rw [start, start, h.here_eq]
    rwa [hstart] at hwalk
  · refine resolve_eq_ok_iff.mpr ⟨hnul, hshort, ?_⟩
    rw [← List.dropLast_concat_getLast hparts, walk_concat_eq_ok_iff] at hwalk ⊢
    obtain ⟨middle, hmiddle, -, hname, rfl⟩ := hwalk
    have hleads : tree.resolve path.parent = .ok middle := by
      have hgoal : goal.resolve path.parent = .ok middle :=
        resolve_eq_ok_iff.mpr ⟨(resolve_eq_ok_iff.mp hfront).1, (resolve_eq_ok_iff.mp hfront).2.1,
          hmiddle⟩
      have hsame := (h.resolve hfront).symm.trans hgoal
      rw [hfront, Except.ok.inj hsame]
    rw [eq_placeOf_of_resolve hleads]
    exact ⟨_, (resolve_eq_ok_iff.mp hfront).2.2, hdir, hname, rfl⟩

end Parent

section Changes

theorem grows_of_put_directory (h : Grows Set.univ tree goal)
    (hgoal : goal.node? place = some .directory) :
    Grows Set.univ (tree.put place .directory) goal := by
  refine ⟨h.here_eq, fun other => ?_⟩
  by_cases hother : other = place
  · refine .inl ?_
    rw [hother, hgoal]
    by_cases hroot : place = []
    · rw [hroot, node?_nil]
    · rw [node?_put_self tree .directory hroot]
  · rw [node?_put_of_ne tree .directory hother]
    exact h.cases_node other

theorem grows_of_put_file (h : Grows Set.univ tree goal) {old : ByteArray}
    (hgoal : goal.node? place = some (.file old)) (content : ByteArray) :
    Grows Set.univ (tree.put place (.file content)) goal := by
  have hroot : place ≠ [] := by
    apply @ne_nil_of_node? goal
    simp [hgoal]
  refine ⟨h.here_eq, fun other => ?_⟩
  by_cases hother : other = place
  · refine .inr (.inr ⟨Set.mem_univ _, ?_, old, ?_⟩)
    · rw [hother, node?_put_self tree _ hroot]
      simp
    · rw [hother, hgoal]
  · rw [node?_put_of_ne tree _ hother]
    exact h.cases_node other

/-- A directory of the goal is there or can be made, once the path leads to its place. -/
theorem exists_ensureDirectory_eq_ok (h : Grows Set.univ tree goal)
    (hdir : goal.isDirectory path = .ok true) (hresolve : tree.resolve path = .ok place) :
    ∃ changed, tree.ensureDirectory path = (.ok (), changed) ∧ Grows Set.univ changed goal := by
  obtain rfl := eq_placeOf_of_resolve hresolve
  have hgoal := (isDirectory_eq_true_iff.mp hdir).2
  rw [h.placeOf_eq] at hgoal
  cases hnode : tree.node? (tree.placeOf path) with
  | none =>
    refine ⟨tree.put (tree.placeOf path) .directory, ?_, grows_of_put_directory h hgoal⟩
    rw [ensureDirectory, makeDirectory_eq_ok_iff.mpr ⟨hresolve, hnode, rfl⟩]
  | some node =>
    cases node with
    | directory =>
      have hthere := isDirectory_eq_true_iff.mpr ⟨hresolve, hnode⟩
      exact ⟨tree, ensureDirectory_of_isDirectory hthere, h⟩
    | file content =>
      obtain ⟨found, hfile⟩ := h.file hnode
      rw [hgoal] at hfile
      cases hfile

theorem exists_ensureUpTo_eq_ok (depth : Nat) (h : Grows Set.univ tree goal)
    (hdir : goal.isDirectory path = .ok true) (hdepth : path.parts.length ≤ depth) :
    ∃ changed, tree.ensureUpTo depth path = (.ok (), changed) ∧ Grows Set.univ changed goal := by
  have hresolve := (isDirectory_eq_true_iff.mp hdir).1
  induction depth generalizing path with
  | zero =>
    have hparts : path.parts = [] := List.length_eq_zero_iff.mp (Nat.le_zero.mp hdepth)
    obtain ⟨hnul, hshort, -⟩ := resolve_eq_ok_iff.mp hresolve
    have hhere : tree.resolve path = .ok (tree.start path) :=
      resolve_eq_ok_iff.mpr ⟨hnul, hshort, by rw [hparts]; rfl⟩
    exact exists_ensureDirectory_eq_ok h hdir hhere
  | succ depth ih =>
    rw [ensureUpTo]
    rcases resolve_or_notFound h hresolve with hfound | hmissing
    · -- the path leads to its place, so that making the directory cannot miss anything
      have hmake : ∀ missing, tree.makeDirectory path ≠ .error (.fault .notFound missing) := by
        intro missing heq
        rw [makeDirectory, hfound] at heq
        cases hnode : tree.node? (goal.placeOf path) <;>
          simp [bind, Except.bind, hnode] at heq
      split
      · rename_i missing heq
        exact absurd heq (hmake missing)
      · exact exists_ensureDirectory_eq_ok h hdir hfound
    · have hmake : tree.makeDirectory path = .error (.fault .notFound path.text) := by
        rw [makeDirectory, hmissing]
        rfl
      have hparts : path.parts ≠ [] := by
        intro hnone
        have hwalk : tree.walk (tree.start path) path.parts = .ok (tree.start path) := by
          rw [hnone]
          rfl
        obtain ⟨hnul, hshort, -⟩ := resolve_eq_ok_iff.mp hresolve
        rw [resolve_eq_ok_iff.mpr ⟨hnul, hshort, hwalk⟩] at hmissing
        cases hmissing
      have hparent : goal.isDirectory path.parent = .ok true := isDirectory_parent hresolve hparts
      have hless : path.parent.parts.length ≤ depth := by
        rw [Path.parent_parts, List.length_dropLast]
        omega
      obtain ⟨changed, hup, hgrows⟩ := ih hparent hless (isDirectory_eq_true_iff.mp hparent).1
      have hmade : changed.isDirectory path.parent = .ok true := by
        have hmakes := (makes_ensureUpTo depth tree path.parent).2
        rw [hup] at hmakes
        exact hmakes rfl
      rw [hmake]
      dsimp only
      rw [hup]
      exact exists_ensureDirectory_eq_ok hgrows hdir (resolve_of_parent hgrows hresolve hmade)

/-- A directory of the goal can be made with those above it. -/
theorem exists_ensureDirectories_eq_ok (h : Grows Set.univ tree goal)
    (hdir : goal.isDirectory path = .ok true) :
    ∃ changed, tree.ensureDirectories path = (.ok (), changed) ∧
      Grows Set.univ changed goal :=
  exists_ensureUpTo_eq_ok path.parts.length h hdir (Nat.le_refl _)

/-- A file of the goal can be written once its directory is there. -/
theorem exists_write_eq_ok (h : Grows Set.univ tree goal) (hfile : goal.isFile path = .ok true)
    (hparent : tree.isDirectory path.parent = .ok true) (content : ByteArray) :
    ∃ changed, tree.write path content = .ok changed ∧ Grows Set.univ changed goal := by
  obtain ⟨hgoal, old, hnode⟩ := isFile_eq_true_iff.mp hfile
  rw [h.placeOf_eq] at hgoal hnode
  refine ⟨tree.put (tree.placeOf path) (.file content), ?_, grows_of_put_file h hnode content⟩
  refine write_eq_ok_iff.mpr ⟨resolve_of_parent h hgoal hparent, ?_, rfl⟩
  intro hdir
  rw [h.directory hdir] at hnode
  cases hnode

end Changes

end ApiClientGen.TreeRoom
