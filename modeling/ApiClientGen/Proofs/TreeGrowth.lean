import ApiClientGen.Files.FileTree
import Mathlib.Data.Set.Insert

/-!
How the operations of a run change a tree. They never remove anything: directories come where
nothing was, and files are written at known places. So whatever leads somewhere leads there ever
after.
-/
namespace ApiClientGen.FileTree

variable {tree before between after : FileTree} {written more : Set FilePlace}
  {place last : FilePlace} {path : Path} {content : ByteArray}

theorem node?_nil (tree : FileTree) : tree.node? [] = some .directory :=
  if_pos rfl

/-- The root is a directory, so that it is never written. -/
theorem ne_nil_of_node? (h : tree.node? place ≠ some .directory) : place ≠ [] := by
  rintro rfl
  exact h (node?_nil tree)

/-- Where the parts of a path lead does not depend on what they meet on the way. -/
theorem eq_foldl_of_walk {parts : List String} (h : tree.walk place parts = .ok last) :
    last = parts.foldl step place := by
  induction parts generalizing place with
  | nil => exact (Except.ok.inj h).symm
  | cons part rest ih =>
    rw [walk] at h
    split at h
    · cases h
    · cases h
    · split at h
      · cases h
      · exact ih h

theorem walk_append (tree : FileTree) (place : FilePlace) (parts rest : List String) :
    tree.walk place (parts ++ rest) = (tree.walk place parts).bind (tree.walk · rest) := by
  induction parts generalizing place with
  | nil => rfl
  | cons part parts ih =>
    rw [List.cons_append, walk, walk]
    split
    · rfl
    · rfl
    · split
      · rfl
      · exact ih _

/-- One more part leads on from a directory only. -/
theorem walk_concat_eq_ok_iff {parts : List String} {part : String} :
    tree.walk place (parts ++ [part]) = .ok last ↔ ∃ middle, tree.walk place parts = .ok middle ∧
      tree.node? middle = some .directory ∧ part.utf8ByteSize ≤ nameLimit ∧
        last = step middle part := by
  rw [walk_append]
  cases tree.walk place parts with
  | error fault => simp [Except.bind]
  | ok middle =>
    rcases hnode : tree.node? middle with _ | _ | content
    · simp [Except.bind, walk, hnode]
    · by_cases hlong : nameLimit < part.utf8ByteSize
      · simp [Except.bind, walk, hnode, hlong, Nat.not_le.mpr hlong]
      · simp [Except.bind, walk, hnode, hlong, Nat.le_of_not_lt hlong, eq_comm]
    · simp [Except.bind, walk, hnode]

/-- Where a path leads depends on the working directory alone. -/
theorem placeOf_eq_of_here_eq (h : after.here = before.here) (path : Path) :
    after.placeOf path = before.placeOf path := by
  have hstart : after.start path = before.start path := by
    rw [start, start, h]
  rw [placeOf, placeOf, hstart]

theorem resolve_eq_ok_iff : tree.resolve path = .ok place ↔
    '\x00' ∉ path.text.toList ∧ path.text.utf8ByteSize < pathLimit ∧
      tree.walk (tree.start path) path.parts = .ok place := by
  rw [resolve]
  split
  · rename_i hnul
    simp [hnul]
  · rename_i hnul
    split
    · rename_i hlong
      simp [Nat.not_lt.mpr hlong]
    · rename_i hlong
      cases tree.walk (tree.start path) path.parts <;>
        simp [Except.mapError, hnul, Nat.lt_of_not_le hlong]

theorem eq_placeOf_of_resolve (h : tree.resolve path = .ok place) : place = tree.placeOf path :=
  eq_foldl_of_walk (resolve_eq_ok_iff.mp h).2.2

theorem read_eq_ok_iff : tree.read path = .ok content ↔
    tree.resolve path = .ok (tree.placeOf path) ∧
      tree.node? (tree.placeOf path) = some (.file content) := by
  rw [read]
  cases hresolve : tree.resolve path with
  | error error => simp [bind, Except.bind]
  | ok place =>
    obtain rfl := eq_placeOf_of_resolve hresolve
    rcases hnode : tree.node? (tree.placeOf path) with _ | _ | found <;>
      simp [bind, Except.bind, hnode]

theorem write_eq_ok_iff : tree.write path content = .ok after ↔
    tree.resolve path = .ok (tree.placeOf path) ∧
      tree.node? (tree.placeOf path) ≠ some .directory ∧
        after = tree.put (tree.placeOf path) (.file content) := by
  rw [write]
  cases hresolve : tree.resolve path with
  | error error => simp [bind, Except.bind]
  | ok place =>
    obtain rfl := eq_placeOf_of_resolve hresolve
    rcases hnode : tree.node? (tree.placeOf path) with _ | _ | found <;>
      simp [bind, Except.bind, hnode, eq_comm]

theorem makeDirectory_eq_ok_iff : tree.makeDirectory path = .ok after ↔
    tree.resolve path = .ok (tree.placeOf path) ∧ tree.node? (tree.placeOf path) = none ∧
      after = tree.put (tree.placeOf path) .directory := by
  rw [makeDirectory]
  cases hresolve : tree.resolve path with
  | error error => simp [bind, Except.bind]
  | ok place =>
    obtain rfl := eq_placeOf_of_resolve hresolve
    cases hnode : tree.node? (tree.placeOf path) <;> simp [bind, Except.bind, hnode, eq_comm]

theorem isDirectory_eq_true_iff : tree.isDirectory path = .ok true ↔
    tree.resolve path = .ok (tree.placeOf path) ∧
      tree.node? (tree.placeOf path) = some .directory := by
  rw [isDirectory, look]
  cases hresolve : tree.resolve path with
  | error error =>
    rcases error with ⟨_ | _ | _ | _ | _, path⟩ | _ <;> simp [Except.map]
  | ok place =>
    obtain rfl := eq_placeOf_of_resolve hresolve
    rcases hnode : tree.node? (tree.placeOf path) with _ | _ | found <;> simp [Except.map, hnode]

theorem isFile_eq_true_iff : tree.isFile path = .ok true ↔
    tree.resolve path = .ok (tree.placeOf path) ∧
      ∃ content, tree.node? (tree.placeOf path) = some (.file content) := by
  rw [isFile, look]
  cases hresolve : tree.resolve path with
  | error error =>
    rcases error with ⟨_ | _ | _ | _ | _, path⟩ | _ <;> simp [Except.map]
  | ok place =>
    obtain rfl := eq_placeOf_of_resolve hresolve
    rcases hnode : tree.node? (tree.placeOf path) with _ | _ | found <;> simp [Except.map, hnode]

theorem isFile_of_read (h : tree.read path = .ok content) : tree.isFile path = .ok true := by
  obtain ⟨hresolve, hnode⟩ := read_eq_ok_iff.mp h
  exact isFile_eq_true_iff.mpr ⟨hresolve, content, hnode⟩

/-- A tree grows into another one: everything stays but for directories where nothing was and
files at some places that held no directory. -/
structure Grows (written : Set FilePlace) (before after : FileTree) : Prop where
  here_eq : after.here = before.here
  cases_node : ∀ place, after.node? place = before.node? place ∨
    (before.node? place = none ∧ after.node? place = some .directory) ∨
    (place ∈ written ∧ before.node? place ≠ some .directory ∧
      ∃ content, after.node? place = some (.file content))

namespace Grows

theorem refl (written : Set FilePlace) (tree : FileTree) : Grows written tree tree :=
  ⟨rfl, fun _ => Or.inl rfl⟩

theorem mono (h : Grows written before after) (hsub : written ⊆ more) :
    Grows more before after := by
  refine ⟨h.here_eq, fun place => ?_⟩
  rcases h.cases_node place with hsame | hnew | ⟨hmem, hrest⟩
  · exact Or.inl hsame
  · exact Or.inr (Or.inl hnew)
  · exact Or.inr (Or.inr ⟨hsub hmem, hrest⟩)

theorem directory (h : Grows written before after)
    (hdir : before.node? place = some .directory) : after.node? place = some .directory := by
  rcases h.cases_node place with hsame | ⟨hnone, -⟩ | ⟨-, hnot, -⟩
  · exact hsame.trans hdir
  · rw [hdir] at hnone
    cases hnone
  · exact absurd hdir hnot

theorem file (h : Grows written before after)
    (hfile : before.node? place = some (.file content)) :
    ∃ content, after.node? place = some (.file content) := by
  rcases h.cases_node place with hsame | ⟨hnone, -⟩ | ⟨-, -, hnew⟩
  · exact ⟨content, hsame.trans hfile⟩
  · rw [hfile] at hnone
    cases hnone
  · exact hnew

/-- A file stays as it is where nothing is written. -/
theorem keeps_file (h : Grows written before after) (hplace : place ∉ written)
    (hfile : before.node? place = some (.file content)) :
    after.node? place = some (.file content) := by
  rcases h.cases_node place with hsame | ⟨hnone, -⟩ | ⟨hmem, -⟩
  · exact hsame.trans hfile
  · rw [hfile] at hnone
    cases hnone
  · exact absurd hmem hplace

theorem trans (h : Grows written before between) (hnext : Grows written between after) :
    Grows written before after := by
  refine ⟨hnext.here_eq.trans h.here_eq, fun place => ?_⟩
  rcases h.cases_node place with hsame | ⟨hnone, hdir⟩ | ⟨hmem, hnot, content, hfile⟩
  · rw [← hsame]
    exact hnext.cases_node place
  · exact Or.inr (Or.inl ⟨hnone, hnext.directory hdir⟩)
  · exact Or.inr (Or.inr ⟨hmem, hnot, hnext.file hfile⟩)

theorem placeOf_eq (h : Grows written before after) (path : Path) :
    after.placeOf path = before.placeOf path :=
  placeOf_eq_of_here_eq h.here_eq path

/-- Parts that lead somewhere lead there ever after. -/
theorem walk (h : Grows written before after) {parts : List String}
    (hwalk : before.walk place parts = .ok last) : after.walk place parts = .ok last := by
  induction parts generalizing place with
  | nil => exact hwalk
  | cons part rest ih =>
    rw [FileTree.walk] at hwalk ⊢
    split at hwalk
    · cases hwalk
    · cases hwalk
    · rename_i hdir
      rw [h.directory hdir]
      split at hwalk
      · cases hwalk
      · rename_i hshort
        simp only [if_neg hshort]
        exact ih hwalk

theorem resolve (h : Grows written before after) (hresolve : before.resolve path = .ok place) :
    after.resolve path = .ok place := by
  obtain ⟨hnul, hshort, hwalk⟩ := resolve_eq_ok_iff.mp hresolve
  have hstart : after.start path = before.start path := by
    rw [start, start, h.here_eq]
  refine resolve_eq_ok_iff.mpr ⟨hnul, hshort, ?_⟩
  rw [hstart]
  exact h.walk hwalk

theorem isDirectory (h : Grows written before after) (hdir : before.isDirectory path = .ok true) :
    after.isDirectory path = .ok true := by
  obtain ⟨hresolve, hnode⟩ := isDirectory_eq_true_iff.mp hdir
  rw [isDirectory_eq_true_iff, h.placeOf_eq]
  exact ⟨h.resolve hresolve, h.directory hnode⟩

theorem isFile (h : Grows written before after) (hfile : before.isFile path = .ok true) :
    after.isFile path = .ok true := by
  obtain ⟨hresolve, content, hnode⟩ := isFile_eq_true_iff.mp hfile
  rw [isFile_eq_true_iff, h.placeOf_eq]
  exact ⟨h.resolve hresolve, h.file hnode⟩

end Grows

theorem grows_put_directory (hnone : tree.node? place = none) :
    Grows ∅ tree (tree.put place .directory) := by
  have hne : place ≠ [] := by
    apply @ne_nil_of_node? tree
    simp [hnone]
  refine ⟨rfl, fun other => ?_⟩
  by_cases hother : other = place
  · subst hother
    exact Or.inr (Or.inl ⟨hnone, node?_put_self tree .directory hne⟩)
  · exact Or.inl (node?_put_of_ne tree .directory hother)

theorem grows_put_file (hnot : tree.node? place ≠ some .directory) :
    Grows {place} tree (tree.put place (.file content)) := by
  have hne : place ≠ [] := ne_nil_of_node? hnot
  refine ⟨rfl, fun other => ?_⟩
  by_cases hother : other = place
  · subst hother
    exact Or.inr (Or.inr ⟨rfl, hnot, content, node?_put_self tree (.file content) hne⟩)
  · exact Or.inl (node?_put_of_ne tree (.file content) hother)

/-- A file that was written stands where its path leads, and nothing else changed. -/
theorem grows_of_write (h : tree.write path content = .ok after) :
    Grows {tree.placeOf path} tree after ∧ after.read path = .ok content := by
  obtain ⟨hresolve, hnot, rfl⟩ := write_eq_ok_iff.mp h
  have hgrows : Grows {tree.placeOf path} tree
      (tree.put (tree.placeOf path) (.file content)) := grows_put_file hnot
  have hne : tree.placeOf path ≠ [] := ne_nil_of_node? hnot
  refine ⟨hgrows, ?_⟩
  rw [read_eq_ok_iff, hgrows.placeOf_eq]
  exact ⟨hgrows.resolve hresolve, node?_put_self tree (.file content) hne⟩

/-- Where a file stood, a file can be written ever after. -/
theorem Grows.write_eq_ok (h : Grows written before after) {old : ByteArray}
    (hread : before.read path = .ok old) (content : ByteArray) :
    after.write path content = .ok (after.put (after.placeOf path) (.file content)) := by
  obtain ⟨hresolve, hnode⟩ := read_eq_ok_iff.mp hread
  obtain ⟨found, hfile⟩ := h.file hnode
  rw [write_eq_ok_iff, h.placeOf_eq]
  refine ⟨h.resolve hresolve, ?_, rfl⟩
  rw [hfile]
  simp

/-- Making a directory changes nothing but the place to which it leads. -/
theorem grows_of_makeDirectory (h : tree.makeDirectory path = .ok after) :
    Grows ∅ tree after ∧ after.isDirectory path = .ok true := by
  obtain ⟨hresolve, hnone, rfl⟩ := makeDirectory_eq_ok_iff.mp h
  have hgrows : Grows ∅ tree (tree.put (tree.placeOf path) .directory) :=
    grows_put_directory hnone
  have hne : tree.placeOf path ≠ [] := by
    apply @ne_nil_of_node? tree
    simp [hnone]
  refine ⟨hgrows, ?_⟩
  rw [isDirectory_eq_true_iff, hgrows.placeOf_eq]
  exact ⟨hgrows.resolve hresolve, node?_put_self tree .directory hne⟩

@[simp] theorem accept_snd (tree : FileTree) (path : Path) (error : FileError) :
    (tree.accept path error).2 = tree := by
  unfold accept
  split
  · rfl
  · rfl
  · split <;> rfl

theorem isDirectory_of_accept {error : FileError} (h : (tree.accept path error).1 = .ok ()) :
    tree.isDirectory path = .ok true := by
  unfold accept at h
  split at h
  · cases h
  · cases h
  · split at h
    · assumption
    · cases h
    · cases h

/-- What holds of making directories: only directories are added, and a success leaves the one
that was asked for. -/
def Makes (path : Path) (tree : FileTree) (change : Change) : Prop :=
  Grows ∅ tree change.2 ∧ (change.1 = .ok () → change.2.isDirectory path = .ok true)

theorem makes_ensureDirectory (tree : FileTree) (path : Path) :
    Makes path tree (tree.ensureDirectory path) := by
  rw [ensureDirectory]
  cases hmake : tree.makeDirectory path with
  | ok changed =>
    obtain ⟨hgrows, hdir⟩ := grows_of_makeDirectory hmake
    exact ⟨hgrows, fun _ => hdir⟩
  | error error =>
    refine ⟨?_, ?_⟩
    · rw [accept_snd]
      exact Grows.refl ∅ tree
    · intro hok
      rw [accept_snd]
      exact isDirectory_of_accept hok

theorem makes_ensureUpTo (depth : Nat) (tree : FileTree) (path : Path) :
    Makes path tree (tree.ensureUpTo depth path) := by
  induction depth generalizing path with
  | zero => exact makes_ensureDirectory tree path
  | succ depth ih =>
    rw [ensureUpTo]
    split
    · split
      · rename_i changed hparent
        have hfirst : Grows ∅ tree changed := by
          have hgrows := (ih path.parent).1
          rwa [hparent] at hgrows
        obtain ⟨hgrows, hdir⟩ := makes_ensureDirectory changed path
        exact ⟨hfirst.trans hgrows, hdir⟩
      · rename_i failed hnot
        refine ⟨(ih path.parent).1, fun hok => ?_⟩
        exact (hnot _ (Prod.ext hok rfl)).elim
    · exact makes_ensureDirectory tree path

theorem grows_of_ensureDirectories (h : tree.ensureDirectories path = (.ok (), after)) :
    Grows ∅ tree after ∧ after.isDirectory path = .ok true := by
  obtain ⟨hgrows, hdir⟩ := makes_ensureUpTo path.parts.length tree path
  rw [ensureDirectories] at h
  rw [h] at hgrows hdir
  exact ⟨hgrows, hdir rfl⟩

/-- A directory that is there does not have to be made. -/
theorem makeDirectory_of_isDirectory (h : tree.isDirectory path = .ok true) :
    tree.makeDirectory path = .error (.fault .alreadyThere path.text) := by
  obtain ⟨hresolve, hnode⟩ := isDirectory_eq_true_iff.mp h
  simp [makeDirectory, hresolve, hnode, bind, Except.bind]

theorem ensureDirectory_of_isDirectory (h : tree.isDirectory path = .ok true) :
    tree.ensureDirectory path = (.ok (), tree) := by
  rw [ensureDirectory, makeDirectory_of_isDirectory h]
  simp [accept, h]

theorem ensureDirectories_of_isDirectory (h : tree.isDirectory path = .ok true) :
    tree.ensureDirectories path = (.ok (), tree) := by
  rw [ensureDirectories]
  cases path.parts.length with
  | zero => exact ensureDirectory_of_isDirectory h
  | succ depth =>
    rw [ensureUpTo, makeDirectory_of_isDirectory h]
    exact ensureDirectory_of_isDirectory h

end ApiClientGen.FileTree
