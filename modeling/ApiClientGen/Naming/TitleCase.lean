import ApiClientGen.Text.Blank
import ApiClientGen.Text.Case
import ApiClientGen.Text.WordChar

/-!
Title case. A word begins at a word character and runs to the next blank; its first character gets
its capital form and the others get their small forms. What stands before the first word character
of a run stays as it is. So what stands on one side of a blank has no part in the other side.
-/
namespace ApiClientGen.Naming

open Text

def isInk (c : Char) : Bool := !isBlank c

def titleChars : List Char → List Char
  | [] => []
  | c :: rest =>
    if isWordChar c then
      upperChar c ++ lower (rest.takeWhile isInk) ++ titleChars (rest.dropWhile isInk)
    else c :: titleChars rest
  termination_by text => text.length
  decreasing_by
    · simp only [List.length_cons]
      exact Nat.lt_succ_of_le (List.dropWhile_sublist isInk).length_le
    · simp

def titleCase (text : String) : String := String.ofList (titleChars text.toList)

/-- The code points of the blanks. -/
def blankCodes : List Nat :=
  List.range' 0x09 5 ++ List.range' 0x1C 5 ++ [0x85, 0xA0, 0x1680] ++ List.range' 0x2000 11 ++
    [0x2028, 0x2029, 0x202F, 0x205F, 0x3000]

theorem isWordChar_of_isBlank {c : Char} (hc : isBlank c = true) : isWordChar c = false := by
  have hcode : c.toNat ∈ blankCodes := by
    simp only [isBlank, Bool.or_eq_true, Bool.and_eq_true, decide_eq_true_eq, beq_iff_eq] at hc
    simp only [blankCodes, List.mem_append, List.mem_range'_1, List.mem_cons, List.not_mem_nil,
      or_false]
    omega
  have hcodes : ∀ code ∈ blankCodes, isWordChar (Char.ofNat code) = false := by decide +kernel
  rw [← Char.ofNat_toNat c]
  exact hcodes _ hcode

theorem titleChars_append_blank {c : Char} (hc : isBlank c = true) (front rest : List Char) :
    titleChars (front ++ c :: rest) = titleChars front ++ c :: titleChars rest := by
  have hink : isInk c = false := by rw [isInk, hc, Bool.not_true]
  fun_induction titleChars front with
  | case1 => simp [titleChars, isWordChar_of_isBlank hc]
  | case2 first front hfirst ih =>
    -- the word that begins here ends at the blank at the latest
    have hword : (front ++ c :: rest).takeWhile isInk = front.takeWhile isInk := by
      rw [List.takeWhile_append]
      split
      · rename_i hall
        rw [List.takeWhile_cons_of_neg (by simp [hink]), List.append_nil]
        exact ((List.takeWhile_sublist isInk).eq_of_length hall).symm
      · rfl
    have hafter : (front ++ c :: rest).dropWhile isInk = front.dropWhile isInk ++ c :: rest := by
      rw [List.dropWhile_append]
      split
      · rename_i hnone
        rw [List.dropWhile_cons_of_neg (by simp [hink]), List.isEmpty_iff.mp hnone,
          List.nil_append]
      · rfl
    rw [List.cons_append, titleChars, if_pos hfirst, hword, hafter, ih]
    simp only [List.append_assoc]
  | case3 first front hfirst ih =>
    rw [List.cons_append, titleChars, if_neg hfirst, ih, List.cons_append]

/-- What a blank separates has its title case on its own. -/
theorem titleCase_append_blank {c : Char} (hc : isBlank c = true) (first second : String) :
    titleCase (first ++ String.singleton c ++ second) =
      titleCase first ++ String.singleton c ++ titleCase second := by
  have htext : (first ++ String.singleton c ++ second).toList =
      first.toList ++ c :: second.toList := by simp
  rw [titleCase, htext, titleChars_append_blank hc, titleCase, titleCase]
  apply String.toList_inj.mp
  simp

example : titleCase "the dog's 2ND-best DAY" = "The Dog's 2nd-best Day" := by decide +kernel

end ApiClientGen.Naming
