import ApiClientGen.Proofs.TreeGrowth

/-!
Two trees that differ at some places only, and there in files at most. Their directories are the
same, so that a path leads through the one as it leads through the other; what can be read or
written elsewhere can be read or written in both.
-/
namespace ApiClientGen.FileTree

variable {places : Set FilePlace} {first second third changed other : FileTree} {path : Path}
  {place last : FilePlace} {content : ByteArray}

/-- Two trees with the same directories that hold the same files outside some places. -/
structure Twins (places : Set FilePlace) (first second : FileTree) : Prop where
  here_eq : second.here = first.here
  directory_iff : ∀ place, first.node? place = some .directory ↔
    second.node? place = some .directory
  node?_eq : ∀ place, place ∉ places → first.node? place = second.node? place

namespace Twins

theorem refl (places : Set FilePlace) (tree : FileTree) : Twins places tree tree :=
  ⟨rfl, fun _ => Iff.rfl, fun _ _ => rfl⟩

theorem symm (h : Twins places first second) : Twins places second first :=
  ⟨h.here_eq.symm, fun place => (h.directory_iff place).symm,
    fun place hplace => (h.node?_eq place hplace).symm⟩

theorem trans (h : Twins places first second) (hnext : Twins places second third) :
    Twins places first third := by
  refine ⟨hnext.here_eq.trans h.here_eq, ?_, ?_⟩
  · exact fun place => (h.directory_iff place).trans (hnext.directory_iff place)
  · exact fun place hplace => (h.node?_eq place hplace).trans (hnext.node?_eq place hplace)

section Seen

variable (h : Twins places first second)
include h

theorem placeOf_eq (path : Path) : second.placeOf path = first.placeOf path :=
  placeOf_eq_of_here_eq h.here_eq path

theorem walk {parts : List String} (hwalk : first.walk place parts = .ok last) :
    second.walk place parts = .ok last := by
  induction parts generalizing place with
  | nil => exact hwalk
  | cons part rest ih =>
    rw [FileTree.walk] at hwalk
    split at hwalk
    · cases hwalk
    · cases hwalk
    · rename_i hdirectory
      rw [FileTree.walk, (h.directory_iff place).mp hdirectory]
      split at hwalk
      · cases hwalk
      · rename_i hshort
        dsimp only
        rw [if_neg hshort]
        exact ih hwalk

theorem resolve (hresolve : first.resolve path = .ok place) :
    second.resolve path = .ok place := by
  rw [resolve_eq_ok_iff] at hresolve ⊢
  obtain ⟨hnul, hlong, hwalk⟩ := hresolve
  have hstart : second.start path = first.start path := by
    rw [start, start, h.here_eq]
  rw [hstart]
  exact ⟨hnul, hlong, h.walk hwalk⟩

theorem isDirectory (hdir : first.isDirectory path = .ok true) :
    second.isDirectory path = .ok true := by
  rw [isDirectory_eq_true_iff] at hdir ⊢
  rw [h.placeOf_eq]
  exact ⟨h.resolve hdir.1, (h.directory_iff _).mp hdir.2⟩

theorem read (hplace : first.placeOf path ∉ places) (hread : first.read path = .ok content) :
    second.read path = .ok content := by
  rw [read_eq_ok_iff] at hread ⊢
  rw [h.placeOf_eq, ← h.node?_eq _ hplace]
  exact ⟨h.resolve hread.1, hread.2⟩

theorem isFile (hplace : first.placeOf path ∉ places) (hfile : first.isFile path = .ok true) :
    second.isFile path = .ok true := by
  rw [isFile_eq_true_iff] at hfile ⊢
  rw [h.placeOf_eq, ← h.node?_eq _ hplace]
  exact ⟨h.resolve hfile.1, hfile.2⟩

end Seen

/-- Putting a file in place of no directory changes no directory. -/
theorem put_file (hnot : first.node? place ≠ some .directory) (hplace : place ∈ places)
    (content : ByteArray) : Twins places first (first.put place (.file content)) := by
  have hne : place ≠ [] := ne_nil_of_node? hnot
  refine ⟨rfl, fun other => ?_, fun other hother => ?_⟩
  · by_cases heq : other = place
    · rw [heq, node?_put_self first _ hne]
      exact iff_of_false hnot (by simp)
    · rw [node?_put_of_ne first _ heq]
  · rw [node?_put_of_ne first]
    rintro rfl
    exact hother hplace

/-- Trees stay twins where a file is written at one of the places in one of them. -/
theorem of_write (hplace : first.placeOf path ∈ places)
    (hwrite : first.write path content = .ok changed) : Twins places first changed := by
  obtain ⟨-, hnot, rfl⟩ := write_eq_ok_iff.mp hwrite
  exact put_file hnot hplace content

/-- Trees stay twins where the same is written in both. -/
theorem write (h : Twins places first second) (hfirst : first.write path content = .ok changed)
    (hsecond : second.write path content = .ok other) : Twins places changed other := by
  obtain ⟨-, hnot, rfl⟩ := write_eq_ok_iff.mp hfirst
  obtain ⟨-, hnot', rfl⟩ := write_eq_ok_iff.mp hsecond
  rw [h.placeOf_eq] at hnot' ⊢
  have hne : first.placeOf path ≠ [] := ne_nil_of_node? hnot
  refine ⟨h.here_eq, fun place => ?_, fun place hplace => ?_⟩
  · by_cases heq : place = first.placeOf path
    · rw [heq, node?_put_self first _ hne, node?_put_self second _ hne]
    · rw [node?_put_of_ne first _ heq, node?_put_of_ne second _ heq]
      exact h.directory_iff place
  · by_cases heq : place = first.placeOf path
    · rw [heq, node?_put_self first _ hne, node?_put_self second _ hne]
    · rw [node?_put_of_ne first _ heq, node?_put_of_ne second _ heq]
      exact h.node?_eq place hplace

end Twins

end ApiClientGen.FileTree
