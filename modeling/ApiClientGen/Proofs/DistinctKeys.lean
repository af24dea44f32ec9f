import ApiClientGen.Json.Document

/-!
No object of a document that was read has a key twice. The reader puts every field into those that
it has read before, where a key that is met again takes the place of the first; so the property
holds of each value as soon as it holds of the shorter texts behind it.
-/
namespace ApiClientGen.DistinctKeys

open Json

/-- No object in the value has a key twice. -/
inductive Distinct : Json → Prop
  | null : Distinct .null
  | bool (value : Bool) : Distinct (.bool value)
  | int (value : Int) : Distinct (.int value)
  | float (value : Binary64) : Distinct (.float value)
  | string (value : String) : Distinct (.string value)
  | list {items : List Json} (h : ∀ item ∈ items, Distinct item) : Distinct (.list items)
  | object {fields : List (String × Json)} (hkeys : (fields.map Prod.fst).Nodup)
    (h : ∀ field ∈ fields, Distinct field.2) : Distinct (.object fields)

@[simp] theorem distinct_list_iff {items : List Json} :
    Distinct (.list items) ↔ ∀ item ∈ items, Distinct item :=
  ⟨fun h => by cases h; assumption, .list⟩

@[simp] theorem distinct_object_iff {fields : List (String × Json)} :
    Distinct (.object fields) ↔
      (fields.map Prod.fst).Nodup ∧ ∀ field ∈ fields, Distinct field.2 :=
  ⟨fun h => by cases h; exact ⟨by assumption, by assumption⟩, fun h => .object h.1 h.2⟩

variable {room : Nat} {s : List Char} {found : Json} {rest : Rest s}
  {fields : List (String × Json)} {items : List Json}

def Proper (fields : List (String × Json)) : Prop :=
  (fields.map Prod.fst).Nodup ∧ ∀ field ∈ fields, Distinct field.2

theorem Proper.put (h : Proper fields) (hfound : Distinct found) (name : String) :
    Proper (Entries.put name found fields) := by
  refine ⟨Entries.nodup_put name found fields h.1, fun field hmem => ?_⟩
  rcases Entries.mem_of_mem_put hmem with rfl | hold
  · exact hfound
  · exact h.2 field hold

/-- What is read at the start of a text has distinct keys throughout. -/
structure ReadsDistinct (s : List Char) : Prop where
  value : ∀ room found rest, value room s = .ok (found, rest) → Distinct found
  members : ∀ room read fields rest, Proper read →
    members room read s = .ok (fields, rest) → Proper fields
  elements : ∀ room read items rest, (∀ item ∈ read, Distinct item) →
    elements room read s = .ok (items, rest) → ∀ item ∈ items, Distinct item

theorem distinct_of_mem_names {name : List Char} (h : (name, found) ∈ names) :
    Distinct found := by
  simp only [names, List.mem_cons, Prod.mk.injEq, List.not_mem_nil, or_false] at h
  rcases h with ⟨-, rfl⟩ | ⟨-, rfl⟩ | ⟨-, rfl⟩ | ⟨-, rfl⟩ | ⟨-, rfl⟩ | ⟨-, rfl⟩ <;> constructor

theorem distinct_of_numeral {numeral : Numeral} (h : numeral.value = .ok found) :
    Distinct found := by
  rw [Numeral.value] at h
  split at h
  · split at h
    · cases h
    · cases h
      exact .int _
  · cases h
    exact .float _

theorem distinct_of_atom (h : atom s = .ok (found, rest)) : Distinct found := by
  rw [atom] at h
  split at h
  · rename_i hfind
    split at h
    · cases h
      exact distinct_of_mem_names (List.mem_of_find?_eq_some hfind)
    · cases h
  · split at h
    · rename_i numeral left _
      cases hvalue : numeral.value with
      | error stop =>
        rw [hvalue] at h
        cases h
      | ok value =>
        rw [hvalue] at h
        cases h
        exact distinct_of_numeral hvalue
    · cases h

theorem distinct_of_value (ih : ∀ r : List Char, r.length < s.length → ReadsDistinct r)
    (h : value room s = .ok (found, rest)) : Distinct found := by
  rw [value.eq_def] at h
  split at h
  · cases h
  · rename_i c r
    split at h
    · split at h <;> cases h
      exact .string _
    · split at h
      · split at h
        · cases h
        · split at h
          rename_i r₁ h₁ _
          split at h
          · cases h
            exact .object List.nodup_nil (List.forall_mem_nil _)
          · split at h <;> cases h
            rename_i hmembers
            have hnone : Proper [] := ⟨List.nodup_nil, List.forall_mem_nil _⟩
            have hproper := (ih r₁ (Nat.lt_succ_of_le h₁)).members _ _ _ _ hnone hmembers
            exact .object hproper.1 hproper.2
      · split at h
        · split at h
          · cases h
          · split at h
            rename_i r₁ h₁ _
            split at h
            · cases h
              exact .list (List.forall_mem_nil _)
            · split at h <;> cases h
              rename_i helements
              have hnone : ∀ item ∈ ([] : List Json), Distinct item := List.forall_mem_nil _
              exact .list ((ih r₁ (Nat.lt_succ_of_le h₁)).elements _ _ _ _ hnone helements)
        · exact distinct_of_atom h

theorem proper_of_members (ih : ∀ r : List Char, r.length < s.length → ReadsDistinct r)
    {read : List (String × Json)} (hread : Proper read)
    (h : members room read s = .ok (fields, rest)) : Proper fields := by
  rw [members.eq_def] at h
  split at h
  · cases h
  · rename_i quote r
    split at h
    · split at h
      · cases h
      · rename_i name r₁ h₁ _
        split at h
        rename_i r₂ h₂ _
        split at h
        · split at h
          rename_i r₃ h₃ _
          split at h
          · cases h
          · rename_i value r₄ h₄ hvalue
            have hless : r₃.length < (quote :: r).length := by
              simp only [List.length_cons]
              omega
            have hput := hread.put ((ih r₃ hless).value _ _ _ hvalue) name
            dsimp only at h
            split at h
            · cases h
              exact hput
            · split at h
              · have h₅ := (skipSpace r₄).property
                have h₆ := (next (skipSpace r₄)).property
                split at h <;> cases h
                rename_i hmembers
                have hshorter : (next (skipSpace r₄)).val.length < (quote :: r).length := by
                  simp only [List.length_cons]
                  omega
                exact (ih _ hshorter).members _ _ _ _ hput hmembers
              · cases h
        · cases h
    · cases h

theorem distinct_of_elements (ih : ∀ r : List Char, r.length < s.length → ReadsDistinct r)
    {read : List Json} (hread : ∀ item ∈ read, Distinct item)
    (h : elements room read s = .ok (items, rest)) : ∀ item ∈ items, Distinct item := by
  rw [elements.eq_def] at h
  split at h
  · cases h
  · rename_i value r₁ h₁ hvalue
    have hvalues : ∀ item ∈ value :: read, Distinct item :=
      List.forall_mem_cons.mpr ⟨distinct_of_value ih hvalue, hread⟩
    split at h
    rename_i r₂ h₂ _
    split at h
    · cases h
      exact fun item hmem => hvalues item (List.mem_reverse.mp hmem)
    · split at h
      · split at h
        rename_i r₃ h₃ _
        split at h <;> cases h
        rename_i helements
        exact (ih r₃ (by omega)).elements _ _ _ _ hvalues helements
      · cases h

theorem readsDistinct (s : List Char) : ReadsDistinct s := by
  induction hlength : s.length using Nat.strongRecOn generalizing s with
  | ind n ih =>
    have hshorter : ∀ r : List Char, r.length < s.length → ReadsDistinct r :=
      fun r hr => ih r.length (hlength ▸ hr) r rfl
    exact {
      value := fun _ _ _ h => distinct_of_value hshorter h
      members := fun _ _ _ _ hread h => proper_of_members hshorter hread h
      elements := fun _ _ _ _ hread h => distinct_of_elements hshorter hread h }

/-- A document that was read has no key twice in an object. -/
theorem distinct_of_ofBytes {bytes : ByteArray} {data : Json}
    (h : Json.ofBytes bytes = .ok data) : Distinct data := by
  rw [Json.ofBytes] at h
  split at h
  · rename_i text _
    rw [Json.ofChars] at h
    split at h
    · rename_i value hparse
      cases h
      rw [Json.parseText] at hparse
      split at hparse
      · cases hparse
      · rename_i found rest hvalue
        split at hparse <;> cases hparse
        exact (readsDistinct _).value _ _ _ hvalue
    all_goals cases h
  · cases h

end ApiClientGen.DistinctKeys
