import ApiClientGen.Naming.TypeName
import Mathlib.Data.List.Forall2
import Mathlib.Data.String.Basic

/-!
Unions of literals. Reading accepts exactly the texts that show literals with a bar between any
two, and gives their values in order. So a union gives back the list from which it was made,
whatever the values hold: quotes, backslashes, bars or nothing at all.
-/
namespace ApiClientGen.LiteralUnions

open Declaration

def bar : List Char := " | ".toList

/-- A text shows the literals of some values in order, with a bar between any two. -/
def Shows (text : List Char) (values : List (List Char)) : Prop :=
  ∃ bodies, List.Forall₂ Spells bodies values ∧ text = bar.intercalate (bodies.map between)

def barred (bodies : List (List Char)) : List Char :=
  bodies.flatMap fun body => bar ++ between body

section Reading

variable {text body rest value left : List Char} {values bodies : List (List Char)}

theorem intercalate_between_cons (body : List Char) (bodies : List (List Char)) :
    bar.intercalate ((body :: bodies).map between) = between body ++ barred bodies := by
  induction bodies generalizing body with
  | nil => simp [barred]
  | cons next bodies ih =>
    rw [List.map_cons, List.map_cons, List.intercalate_cons_cons, ← List.map_cons, ih, barred,
      barred, List.flatMap_cons]
    simp only [List.append_assoc]

theorem readAlternatives_of_read (h : readLiteralBody rest = some (value, left)) :
    readAlternatives (bar ++ '\'' :: rest) = (readAlternatives left).map (value :: ·) := by
  have hbar : bar ++ '\'' :: rest = ' ' :: '|' :: ' ' :: '\'' :: rest := rfl
  rw [hbar, readAlternatives]
  split
  · rename_i found behind hread
    rw [h] at hread
    cases hread
    rfl
  · rename_i hnone
    rw [h] at hnone
    cases hnone

theorem readAlternatives_eq_some_iff :
    readAlternatives text = some values ↔
      ∃ bodies, List.Forall₂ Spells bodies values ∧ text = barred bodies := by
  constructor
  · intro h
    fun_induction readAlternatives text generalizing values with
    | case1 =>
      cases h
      exact ⟨[], .nil, rfl⟩
    | case2 rest value left hread ih =>
      obtain ⟨others, hothers, rfl⟩ := Option.map_eq_some_iff.mp h
      obtain ⟨bodies, hbodies, rfl⟩ := ih hothers
      obtain ⟨body, hbody, rfl⟩ := exists_spells_of_readLiteralBody hread
      exact ⟨body :: bodies, .cons hbody hbodies, by simp [barred, bar, between]⟩
    | case3 => cases h
    | case4 => cases h
  · rintro ⟨bodies, hbodies, rfl⟩
    induction hbodies with
    | nil => simp [barred, readAlternatives]
    | @cons body value bodies values hbody _ ih =>
      have htext : barred (body :: bodies) = bar ++ '\'' :: (body ++ '\'' :: barred bodies) := by
        simp [barred, between]
      rw [htext, readAlternatives_of_read (hbody.readLiteralBody _), ih]
      rfl

/-- A union with a value is a literal of it, and the alternatives behind. -/
theorem readUnion_eq_some_cons_iff :
    readUnion text = some (value :: values) ↔
      ∃ left, readLiteral text = some (value, left) ∧ readAlternatives left = some values := by
  rw [readUnion.eq_def]
  split
  · simp [readLiteral]
  · cases readLiteral text with
    | none => simp
    | some found =>
      obtain ⟨first, left⟩ := found
      simp only [Option.map_eq_some_iff]
      constructor
      · rintro ⟨others, hothers, heq⟩
        cases heq
        exact ⟨left, rfl, hothers⟩
      · rintro ⟨behind, heq, hothers⟩
        cases heq
        exact ⟨values, hothers, rfl⟩

theorem readUnion_eq_some_nil_iff : readUnion text = some [] ↔ text = [] := by
  rw [readUnion.eq_def]
  split
  · simp
  · rename_i hne
    refine iff_of_false ?_ hne
    split <;> simp

theorem shows_cons_iff :
    Shows text (value :: values) ↔ ∃ body bodies, Spells body value ∧
      List.Forall₂ Spells bodies values ∧ text = between body ++ barred bodies := by
  constructor
  · rintro ⟨_, _ | ⟨hbody, hbodies⟩, rfl⟩
    exact ⟨_, _, hbody, hbodies, intercalate_between_cons ..⟩
  · rintro ⟨body, bodies, hbody, hbodies, rfl⟩
    exact ⟨body :: bodies, .cons hbody hbodies, (intercalate_between_cons ..).symm⟩

theorem readUnion_eq_some_iff : readUnion text = some values ↔ Shows text values := by
  cases values with
  | nil =>
    rw [readUnion_eq_some_nil_iff]
    constructor
    · rintro rfl
      exact ⟨[], .nil, rfl⟩
    · rintro ⟨_, _ | _, rfl⟩
      rfl
  | cons value values =>
    rw [readUnion_eq_some_cons_iff, shows_cons_iff]
    constructor
    · rintro ⟨left, hread, hothers⟩
      obtain ⟨body, hbody, rfl⟩ := readLiteral_eq_some_iff.mp hread
      obtain ⟨bodies, hbodies, rfl⟩ := readAlternatives_eq_some_iff.mp hothers
      exact ⟨body, bodies, hbody, hbodies, rfl⟩
    · rintro ⟨body, bodies, hbody, hbodies, rfl⟩
      exact ⟨_, readLiteral_eq_some_iff.mpr ⟨body, hbody, rfl⟩,
        readAlternatives_eq_some_iff.mpr ⟨bodies, hbodies, rfl⟩⟩

end Reading

section Unions

variable (values : List String)

theorem shows_literalUnion : Shows (literalUnion values).toList (values.map String.toList) := by
  refine ⟨values.map fun value => value.toList.flatMap literalChar, ?_, ?_⟩
  · rw [List.forall₂_map_left_iff, List.forall₂_map_right_iff, List.forall₂_same]
    exact fun value _ => spells_flatMap_literalChar value.toList
  · rw [literalUnion, String.toList_intercalate, List.map_map, List.map_map]
    exact congrArg bar.intercalate (List.map_congr_left fun value _ => String.toList_ofList)

theorem readUnion_literalUnion :
    readUnion (literalUnion values).toList = some (values.map String.toList) :=
  readUnion_eq_some_iff.mpr (shows_literalUnion values)

theorem literalUnion_injective : Function.Injective literalUnion := by
  intro first second h
  have hread := readUnion_literalUnion first
  rw [h, readUnion_literalUnion, Option.some.injEq] at hread
  exact (List.map_injective_iff.mpr (fun _ _ => String.toList_inj.mp) hread).symm

end Unions

/-- The reader of unions accepts exactly the texts that show literals with a bar between any two,
and gives their values. It gives each list back from its union, so that two lists never have the
same one, and from the type of a parameter the values to which the parameter is restricted. -/
theorem unions_read_back :
    (∀ text values, readUnion text = some values ↔ Shows text values) ∧
      (∀ values : List String,
        readUnion (literalUnion values).toList = some (values.map String.toList)) ∧
      Function.Injective literalUnion ∧
      ∀ (parameter : Parameter) (value : String) (rest : List String),
        readUnion ({ parameter with enum := some (value :: rest) } : Parameter).typeName.toList =
          some ((value :: rest).map String.toList) := by
  refine ⟨fun text values => readUnion_eq_some_iff, readUnion_literalUnion,
    literalUnion_injective, fun parameter value rest => ?_⟩
  have htype : ({ parameter with enum := some (value :: rest) } : Parameter).typeName =
      literalUnion (value :: rest) := rfl
  rw [htype, readUnion_literalUnion]

example : readUnion "'it\\'s' | '' | ' | ' | '\\\\'".toList =
    some ["it's".toList, [], " | ".toList, "\\".toList] := by
  cbv

end ApiClientGen.LiteralUnions
