import ApiClientGen.Naming.ClassName
import ApiClientGen.Proofs.CaseForms
import Mathlib.Data.List.Basic

/-!
When the name of a class is an identifier. It is never empty and made of identifier characters
only. Title case neither makes nor changes digits, so the name begins with a digit exactly if a
digit is the first character of the path that leaves anything in the name.
-/
namespace ApiClientGen.ClassIdentifiers

open Naming Text

/-- The form that title case gives to a character, outside or inside a word. -/
def form (inside : Bool) (c : Char) : List Char :=
  if inside && isInk c then lowerChar c else if isWordChar c then upperChar c else [c]

def next (inside : Bool) (c : Char) : Bool := (inside && isInk c) || isWordChar c

/-- What a text leaves in a class name, read one character after the other. -/
def kept (inside : Bool) : List Char → List Char
  | [] => []
  | c :: rest => (form inside c).filter isIdentifierChar ++ kept (next inside c) rest

section TitleCase

variable {inside : Bool} {c : Char} {text : List Char}

/-- A capital sigma has two small forms, but neither of them stays. -/
theorem filter_lowerAfter (before text : List Char) :
    (lowerAfter before text).filter isIdentifierChar =
      text.flatMap fun c => (lowerChar c).filter isIdentifierChar := by
  induction text generalizing before with
  | nil => rfl
  | cons c rest ih =>
    rw [lowerAfter, List.filter_append, ih, List.flatMap_cons]
    congr 1
    split
    · rename_i hsigma
      have hc : c = Char.ofNat 0x3A3 := by rw [← hsigma.1, Char.ofNat_toNat]
      rw [hc]
      decide
    · rfl

theorem kept_word (rest : List Char) :
    kept true rest = (lower (rest.takeWhile isInk)).filter isIdentifierChar ++
      kept false (rest.dropWhile isInk) := by
  rw [lower, filter_lowerAfter]
  induction rest with
  | nil => rfl
  | cons c rest ih =>
    rw [List.takeWhile_cons, List.dropWhile_cons]
    by_cases hink : isInk c = true
    · have hform : form true c = lowerChar c := by simp [form, hink]
      have hnext : next true c = true := by simp [next, hink]
      rw [if_pos hink, if_pos hink, kept, hform, hnext, ih, List.flatMap_cons, List.append_assoc]
    · have hform : form true c = form false c := by simp [form, hink]
      have hnext : next true c = next false c := by simp [next, hink]
      rw [if_neg hink, if_neg hink, kept, hform, hnext, List.flatMap_nil, List.nil_append, kept]

theorem segmentName_eq_kept (segment : List Char) : segmentName segment = kept false segment := by
  rw [segmentName]
  fun_induction titleChars segment with
  | case1 => rfl
  | case2 c rest hword ih =>
    have hform : form false c = upperChar c := by simp [form, hword]
    have hnext : next false c = true := by simp [next, hword]
    rw [List.filter_append, List.filter_append, ih, kept, hform, hnext, kept_word,
      List.append_assoc]
  | case3 c rest hother ih =>
    have hform : form false c = [c] := by simp [form, hother]
    have hnext : next false c = false := by simp [next, hother]
    rw [kept, hform, hnext, ← ih, ← List.filter_append, List.singleton_append]

end TitleCase

section Digits

variable {inside : Bool} {c digit : Char} {text : List Char}

theorem digit_forms : ∀ code < 0x3A, (Char.ofNat code).isDigit = true →
    IsSign (Char.ofNat code) ∧ isIdentifierStart (Char.ofNat code) = false ∧
      ∀ inside, (form inside (Char.ofNat code)).filter isIdentifierChar = [Char.ofNat code] := by
  decide +kernel

/-- A digit begins no identifier, and title case leaves it as it is wherever it stands. -/
theorem forms_of_isDigit (h : digit.isDigit = true) :
    IsSign digit ∧ isIdentifierStart digit = false ∧
      ∀ inside, (form inside digit).filter isIdentifierChar = [digit] := by
  have hcode : digit.toNat < 0x3A := by
    rw [Char.isDigit, Bool.and_eq_true, decide_eq_true_eq, decide_eq_true_eq,
      UInt32.le_iff_toNat_le] at h
    exact Nat.lt_succ_of_le h.2
  have hforms := digit_forms digit.toNat hcode
  rw [Char.ofNat_toNat] at hforms
  exact hforms h

/-- A digit is no other character's form. -/
theorem eq_of_mem_form (h : digit.isDigit = true) (hmem : digit ∈ form inside c) : digit = c := by
  have hsign := (forms_of_isDigit h).1
  rw [form] at hmem
  split at hmem
  · exact hsign.eq_of_mem_lowerChar hmem
  · split at hmem
    · exact hsign.eq_of_mem_upperChar hmem
    · exact List.mem_singleton.mp hmem

/-- What a text leaves begins with a digit exactly if nothing is left of the text before it. -/
theorem head?_kept_iff (h : digit.isDigit = true) :
    (kept inside text).head? = some digit ↔
      ∃ front back, text = front ++ digit :: back ∧ kept inside front = [] := by
  constructor
  · intro hhead
    induction text generalizing inside with
    | nil => cases hhead
    | cons c rest ih =>
      rw [kept, List.head?_append, Option.or_eq_some_iff] at hhead
      rcases hhead with hfirst | ⟨hnone, hrest⟩
      · have hmem := List.mem_of_mem_filter (List.mem_of_head? hfirst)
        rw [eq_of_mem_form h hmem]
        exact ⟨[], rest, rfl, rfl⟩
      · obtain ⟨front, back, rfl, hfront⟩ := ih hrest
        refine ⟨c :: front, back, rfl, ?_⟩
        rw [kept, List.head?_eq_none_iff.mp hnone, hfront]
        rfl
  · rintro ⟨front, back, rfl, hfront⟩
    induction front generalizing inside with
    | nil =>
      rw [List.nil_append, kept, (forms_of_isDigit h).2.2]
      rfl
    | cons c front ih =>
      rw [kept, List.append_eq_nil_iff] at hfront
      rw [List.cons_append, kept, hfront.1, List.nil_append]
      exact ih hfront.2

end Digits

section Names

variable {resource : Resource}

def namingSegments (resource : Resource) : List (List Char) :=
  (segments (resource.resourcePath.getD "")).filter (isNaming resource.apiVersion)

/-- A digit is the first character of the path that leaves anything in the name: segments without
a part in the name stand before its segment, and characters that leave nothing before it there. -/
def LeadsWithDigit (resource : Resource) : Prop :=
  ∃ earlier segment later front digit back,
    namingSegments resource = earlier ++ segment :: later ∧
      (∀ other ∈ earlier, segmentName other = []) ∧
      segment = front ++ digit :: back ∧ segmentName front = [] ∧ digit.isDigit = true

theorem leadsWithDigit_iff :
    LeadsWithDigit resource ↔
      ∃ digit, ((namingSegments resource).flatMap segmentName).head? = some digit ∧
        digit.isDigit = true := by
  simp only [List.head?_flatMap, List.findSome?_eq_some_iff, List.head?_eq_none_iff]
  constructor
  · rintro ⟨earlier, segment, later, front, digit, back, hsplit, hearlier, hsegment, hfront,
      hdigit⟩
    refine ⟨digit, ⟨earlier, segment, later, hsplit, ?_, hearlier⟩, hdigit⟩
    rw [segmentName_eq_kept, head?_kept_iff hdigit]
    rw [segmentName_eq_kept] at hfront
    exact ⟨front, back, hsegment, hfront⟩
  · rintro ⟨digit, ⟨earlier, segment, later, hsplit, hhead, hearlier⟩, hdigit⟩
    rw [segmentName_eq_kept, head?_kept_iff hdigit] at hhead
    obtain ⟨front, back, hsegment, hfront⟩ := hhead
    rw [← segmentName_eq_kept] at hfront
    exact ⟨earlier, segment, later, front, digit, back, hsplit, hearlier, hsegment, hfront,
      hdigit⟩

/-- An identifier character begins an identifier unless it is a digit. -/
theorem isIdentifierStart_iff {c : Char} (h : isIdentifierChar c = true) :
    isIdentifierStart c = true ↔ ¬ c.isDigit = true := by
  constructor
  · intro hstart hdigit
    rw [(forms_of_isDigit hdigit).2.1] at hstart
    cases hstart
  · intro hdigit
    rw [Bool.not_eq_true] at hdigit
    rwa [isIdentifierChar, Char.isAlphanum, hdigit, Bool.or_false] at h

end Names

/-- The name of a class is never empty and made of identifier characters. It is an identifier
unless a digit is the first character of the path of its resource that leaves anything in it. -/
theorem class_name_is_identifier_iff (resource : Resource) :
    className resource ≠ "" ∧
      (∀ c ∈ (className resource).toList, isIdentifierChar c = true) ∧
      (isIdentifier (className resource).toList = true ↔ ¬ LeadsWithDigit resource) := by
  have hchars : ∀ c ∈ (namingSegments resource).flatMap segmentName,
      isIdentifierChar c = true := by
    intro c hc
    obtain ⟨segment, -, hmem⟩ := List.mem_flatMap.mp hc
    exact isIdentifierChar_of_mem_segmentName hmem
  have hname : pathName (resource.resourcePath.getD "") resource.apiVersion =
      (namingSegments resource).flatMap segmentName := rfl
  rw [leadsWithDigit_iff, className, hname]
  cases hpath : (namingSegments resource).flatMap segmentName with
  | nil =>
    refine ⟨by decide, List.all_eq_true.mp (by decide), iff_of_true (by decide) ?_⟩
    rintro ⟨digit, hhead, -⟩
    cases hhead
  | cons c rest =>
    rw [hpath, List.forall_mem_cons] at hchars
    have hstart : isIdentifier (c :: rest) = true ↔ isIdentifierStart c = true := by
      rw [isIdentifier, Bool.and_eq_true, List.all_eq_true, and_iff_left hchars.2]
    refine ⟨?_, ?_, ?_⟩
    · rw [ne_eq, ← String.toList_eq_nil_iff, String.toList_ofList]
      exact List.cons_ne_nil c rest
    · rw [String.toList_ofList]
      exact List.forall_mem_cons.mpr hchars
    · rw [String.toList_ofList, hstart, isIdentifierStart_iff hchars.1]
      simp

def digitResource : Resource where
  resourcePath := some "/2fa"

/-- The name of its class begins with the digit. -/
theorem digit_path_gives_no_identifier :
    className digitResource = "2fa" ∧ isIdentifier (className digitResource).toList = false := by
  have hpath : pathName "/2fa" none = "2fa".toList := by
    rw [pathName, funext segmentName_eq_kept]
    decide
  have hname : className digitResource = "2fa" := by
    rw [className, digitResource, Option.getD_some, hpath]
    rfl
  rw [hname]
  exact ⟨rfl, by decide⟩

end ApiClientGen.ClassIdentifiers
