import ApiClientGen.Text.Case
import Mathlib.Data.Char

/-!
Which characters a change of case can make. Every form that a character takes is a letter or a
mark that stands behind the capital `A`, unless it is the character itself. So a separator, a line
feed or any other sign before the letters is in the changed text only if it was in the text.
-/
namespace ApiClientGen.Text

/-- A character that stands before the letters. -/
def IsSign (c : Char) : Prop := c ≠ '\x00' ∧ c.toNat < 0x41

instance (c : Char) : Decidable (IsSign c) := inferInstanceAs (Decidable (_ ∧ _))

variable {c sign : Char} {text : List Char}

/-- A code that is none of a character gives NUL, so that NUL is no sign here. -/
theorem IsSign.ne_ofNat (h : IsSign sign) {code : Nat} (hcode : 0x41 ≤ code) :
    sign ≠ Char.ofNat code := by
  obtain ⟨hnul, hlow⟩ := h
  rintro rfl
  by_cases hvalid : code.isValidChar
  · have hcodes : (Char.ofNat code).toNat = code := by
      rw [Char.ofNat, dif_pos hvalid]
      rfl
    omega
  · apply hnul
    rw [Char.ofNat, dif_neg hvalid]
    rfl

theorem le_of_mapCode? {runs : List CaseRun} (hruns : ∀ run ∈ runs, 0x41 ≤ run.target)
    {code mapped : Nat} (h : mapCode? runs code = some mapped) : 0x41 ≤ mapped := by
  obtain ⟨run, hrun, hmap⟩ := List.exists_of_findSome?_eq_some h
  have htarget := hruns run hrun
  rw [CaseRun.map?] at hmap
  split at hmap
  · cases hmap
    omega
  · cases hmap

theorem IsSign.eq_of_mapped (h : IsSign sign) {runs : List CaseRun}
    (hruns : ∀ run ∈ runs, 0x41 ≤ run.target)
    (hmem : sign ∈ [((mapCode? runs c.toNat).map Char.ofNat).getD c]) : sign = c := by
  rw [List.mem_singleton] at hmem
  cases hmap : mapCode? runs c.toNat with
  | none => rwa [hmap] at hmem
  | some mapped =>
    rw [hmap] at hmem
    exact absurd hmem (h.ne_ofNat (le_of_mapCode? hruns hmap))

/-- Among the first 128 characters only letters have another form, and it is a letter. -/
theorem ascii_forms : ∀ code < 0x80,
    ((Char.ofNat code).toUpper = Char.ofNat code ∨ 0x41 ≤ (Char.ofNat code).toUpper.toNat) ∧
      ((Char.ofNat code).toLower = Char.ofNat code ∨ 0x41 ≤ (Char.ofNat code).toLower.toNat) := by
  decide +kernel

theorem IsSign.eq_of_ascii (h : IsSign sign) {form : Char}
    (hform : form = c ∨ 0x41 ≤ form.toNat) (hmem : sign ∈ [form]) : sign = c := by
  rw [List.mem_singleton] at hmem
  subst hmem
  rcases hform with hsame | hletter
  · exact hsame
  · have hlow := h.2
    omega

theorem IsSign.eq_of_mem_upperChar (h : IsSign sign) (hmem : sign ∈ upperChar c) : sign = c := by
  rw [upperChar] at hmem
  split at hmem
  · rename_i hascii
    have hforms := (ascii_forms c.toNat hascii).1
    rw [Char.ofNat_toNat] at hforms
    exact h.eq_of_ascii hforms hmem
  · split at hmem
    · rename_i codes hlookup
      have hexpansions : ∀ expansion ∈ upperExpansions, ∀ code ∈ expansion.2, 0x41 ≤ code := by
        decide +kernel
      obtain ⟨code, hcode, heq⟩ := List.mem_map.mp hmem
      obtain ⟨front, back, hsplit, -⟩ := List.lookup_eq_some_iff.mp hlookup
      have hentry : (c.toNat, codes) ∈ upperExpansions := by
        rw [hsplit]
        exact List.mem_append_right _ (List.mem_cons_self ..)
      exact absurd heq.symm (h.ne_ofNat (hexpansions _ hentry code hcode))
    · exact h.eq_of_mapped (by decide +kernel) hmem

theorem IsSign.eq_of_mem_lowerChar (h : IsSign sign) (hmem : sign ∈ lowerChar c) : sign = c := by
  rw [lowerChar] at hmem
  split at hmem
  · rename_i hascii
    have hforms := (ascii_forms c.toNat hascii).2
    rw [Char.ofNat_toNat] at hforms
    exact h.eq_of_ascii hforms hmem
  · split at hmem
    · rw [List.mem_cons, List.mem_singleton] at hmem
      rcases hmem with rfl | rfl
      · exact absurd h (by decide)
      · exact absurd h (by decide)
    · exact h.eq_of_mapped (by decide +kernel) hmem

/-- A sign in a capital form was there before. -/
theorem IsSign.mem_of_mem_upper (h : IsSign sign) (hmem : sign ∈ upper text) : sign ∈ text := by
  obtain ⟨c, hc, hform⟩ := List.mem_flatMap.mp hmem
  rwa [h.eq_of_mem_upperChar hform]

theorem IsSign.mem_of_mem_upperFirst (h : IsSign sign) (hmem : sign ∈ upperFirst text) :
    sign ∈ text := by
  cases text with
  | nil => cases hmem
  | cons c rest =>
    rw [upperFirst, List.mem_append] at hmem
    rcases hmem with hform | hrest
    · rw [h.eq_of_mem_upperChar hform]
      exact List.mem_cons_self ..
    · exact List.mem_cons_of_mem _ hrest

theorem IsSign.mem_of_mem_lowerFirst (h : IsSign sign) (hmem : sign ∈ lowerFirst text) :
    sign ∈ text := by
  cases text with
  | nil => cases hmem
  | cons c rest =>
    rw [lowerFirst, List.mem_append] at hmem
    rcases hmem with hform | hrest
    · rw [h.eq_of_mem_lowerChar hform]
      exact List.mem_cons_self ..
    · exact List.mem_cons_of_mem _ hrest

end ApiClientGen.Text
