import ApiClientGen.Proofs.TypeForm
import Mathlib.Data.List.Induction
import Mathlib.Data.String.Basic

/-!
The scan for references against the types of the generated text. The scan lists the models that
the types name, each once and in the order in which they are first met; the references that dangle
are those of them that the resource does not hold, in increasing order.
-/
namespace ApiClientGen.ReferenceScan

open TypeForm

/-- A list without its repeats: each member once, in the order in which they are first met. -/
structure FirstSeen {α : Type} [DecidableEq α] (seen kept : List α) : Prop where
  nodup : kept.Nodup
  mem_iff : ∀ a, a ∈ kept ↔ a ∈ seen
  ordered : kept.Pairwise fun a b => seen.idxOf a < seen.idxOf b

section FirstSeen

variable {α : Type} [DecidableEq α] {seen kept : List α}

/-- Going on with a list keeps the places at which its members are first met. -/
theorem FirstSeen.ordered_append (h : FirstSeen seen kept) (more : List α) :
    kept.Pairwise fun a b => (seen ++ more).idxOf a < (seen ++ more).idxOf b := by
  refine h.ordered.imp_of_mem ?_
  intro a b ha hb hlt
  rwa [List.idxOf_append_of_mem ((h.mem_iff a).mp ha),
    List.idxOf_append_of_mem ((h.mem_iff b).mp hb)]

theorem FirstSeen.append_known (h : FirstSeen seen kept) {last : α} (hlast : last ∈ seen) :
    FirstSeen (seen ++ [last]) kept := by
  refine ⟨h.nodup, ?_, h.ordered_append [last]⟩
  intro a
  rw [h.mem_iff, List.mem_append, List.mem_singleton]
  constructor
  · exact Or.inl
  · rintro (hseen | rfl)
    · exact hseen
    · exact hlast

/-- A new member is met behind all members that were met before. -/
theorem FirstSeen.append_new (h : FirstSeen seen kept) {last : α} (hlast : last ∉ seen) :
    FirstSeen (seen ++ [last]) (kept ++ [last]) := by
  have hnew : last ∉ kept := fun hkept => hlast ((h.mem_iff last).mp hkept)
  refine ⟨?_, ?_, ?_⟩
  · rw [List.nodup_append]
    refine ⟨h.nodup, List.pairwise_singleton _ last, ?_⟩
    rintro a ha b hb rfl
    rw [List.mem_singleton] at hb
    exact hnew (hb ▸ ha)
  · intro a
    rw [List.mem_append, List.mem_append, h.mem_iff]
  · rw [List.pairwise_append]
    refine ⟨h.ordered_append [last], List.pairwise_singleton _ _, ?_⟩
    intro a ha b hb
    rw [List.mem_singleton] at hb
    subst hb
    have hseen : a ∈ seen := (h.mem_iff a).mp ha
    rw [List.idxOf_append_of_mem hseen, List.idxOf_append_of_notMem hlast]
    exact Nat.lt_of_lt_of_le (List.idxOf_lt_length_of_mem hseen) (Nat.le_add_right _ _)

theorem firstSeen_eraseDups (seen : List α) : FirstSeen seen seen.eraseDups := by
  induction seen using List.reverseRecOn with
  | nil => exact ⟨List.nodup_nil, fun a => Iff.rfl, List.Pairwise.nil⟩
  | append_singleton seen last ih =>
    rw [List.eraseDups_append]
    by_cases hlast : last ∈ seen
    · have hnone : [last].removeAll seen = [] := by simp [List.removeAll, hlast]
      rw [hnone, List.eraseDups_nil, List.append_nil]
      exact ih.append_known hlast
    · have hone : [last].removeAll seen = [last] := by simp [List.removeAll, hlast]
      rw [hone, List.eraseDups_cons, List.filter_nil, List.eraseDups_nil]
      exact ih.append_new hlast

/-- Leaving members out keeps the order of the others. -/
theorem idxOf_filter_lt {p : α → Bool} {a b : α} (ha : p a = true) (hb : p b = true)
    (h : seen.idxOf a < seen.idxOf b) : (seen.filter p).idxOf a < (seen.filter p).idxOf b := by
  induction seen with
  | nil => exact absurd h (lt_irrefl _)
  | cons c rest ih =>
    by_cases hca : c = a
    · subst hca
      have hcb : c ≠ b := by
        rintro rfl
        exact lt_irrefl _ h
      simp [ha, hcb]
    · have hcb : c ≠ b := by
        rintro rfl
        simp at h
      have hrest : rest.idxOf a < rest.idxOf b := by simpa [hca, hcb] using h
      cases hp : p c <;> simp [hp, hca, hcb, ih hrest]

theorem FirstSeen.filter (h : FirstSeen seen kept) (p : α → Bool) :
    FirstSeen (seen.filter p) (kept.filter p) := by
  refine ⟨h.nodup.filter p, fun a => ?_, ?_⟩
  · rw [List.mem_filter, List.mem_filter, h.mem_iff]
  · refine (h.ordered.filter p).imp_of_mem fun ha hb hlt => ?_
    exact idxOf_filter_lt (List.mem_filter.mp ha).2 (List.mem_filter.mp hb).2 hlt

end FirstSeen

/-- Some type of the generated text is built with the interface of the model of an id: the type of
a property or of a result, perhaps with array layers around it, or the type of a body. -/
def Builds (resource : Resource) (id : String) : Prop :=
  (∃ model ∈ resource.models.values, ∃ property ∈ model.properties.values, ∃ n,
    property.form = (TypeForm.model id).layered n ∧
      property.typeName = Naming.interfaceName (some id) ++ marks n) ∨
  (∃ operation ∈ resource.operations, ∃ parameter ∈ operation.parameters,
    parameter.location = some .body ∧
      parameter.typeName = Naming.interfaceName (some id)) ∨
  ∃ operation ∈ resource.operations, ∃ n,
    operation.returnForm = (TypeForm.model id).layered n ∧
      operation.returnType = Naming.interfaceName (some id) ++ marks n

theorem property_names_iff (property : Property) (id : String) :
    property.form.model? = some id ↔ ∃ n, property.form = (TypeForm.model id).layered n ∧
      property.typeName = Naming.interfaceName (some id) ++ marks n := by
  rw [model?_eq_some_iff]
  refine exists_congr fun n => ?_
  constructor
  · intro h
    refine ⟨h, ?_⟩
    rw [← Property.text_form, h, text_layered, text]
  · exact fun h => h.1

theorem return_names_iff (operation : Operation) (id : String) :
    operation.returnForm.model? = some id ↔
      ∃ n, operation.returnForm = (TypeForm.model id).layered n ∧
        operation.returnType = Naming.interfaceName (some id) ++ marks n := by
  rw [model?_eq_some_iff]
  refine exists_congr fun n => ?_
  constructor
  · intro h
    refine ⟨h, ?_⟩
    rw [← Operation.text_returnForm, h, text_layered, text]
  · exact fun h => h.1

theorem parameter_names_iff (parameter : Parameter) {id : String} (hid : id ≠ "") :
    parameter.form.model? = some id ↔ parameter.location = some .body ∧
      parameter.typeName = Naming.interfaceName (some id) := by
  rw [Parameter.model?_form_eq_some_iff]
  exact and_congr_right fun hbody => Parameter.form_eq_model_iff hid hbody

theorem mem_refs_iff_builds (resource : Resource) (id : String) :
    id ∈ resource.refs ↔ id ≠ "" ∧ Builds resource id := by
  have hnamed (hid : id ≠ "") : id ∈ resource.refs ↔ Builds resource id := by
    simp only [Resource.mem_refs_iff, property_names_iff, parameter_names_iff _ hid,
      return_names_iff, Builds, and_or_left, exists_or]
  constructor
  · intro h
    have hid := Resource.ne_empty_of_mem_refs h
    exact ⟨hid, (hnamed hid).mp h⟩
  · rintro ⟨hid, h⟩
    exact (hnamed hid).mpr h

theorem mem_danglingReferences_iff (resource : Resource) (id : String) :
    id ∈ resource.danglingReferences ↔
      id ∈ resource.referencedModels ∧ id ∉ resource.models.keys := by
  rw [Resource.danglingReferences, List.mem_mergeSort, List.mem_filter,
    ← OrderedMap.find?_isSome_iff]
  cases resource.models.find? id <;> simp

theorem pairwise_lt_danglingReferences (resource : Resource) :
    resource.danglingReferences.Pairwise (· < ·) := by
  have hsorted : resource.danglingReferences.Pairwise (fun a b => decide (a ≤ b) = true) := by
    apply List.pairwise_mergeSort
    · intro a b c hab hbc
      rw [decide_eq_true_eq] at hab hbc ⊢
      exact le_trans hab hbc
    · intro a b
      rw [Bool.or_eq_true, decide_eq_true_eq, decide_eq_true_eq]
      exact le_total a b
  have hnodup : resource.danglingReferences.Nodup := by
    rw [Resource.danglingReferences, (List.mergeSort_perm _ _).nodup_iff]
    exact (firstSeen_eraseDups resource.refs).nodup.filter _
  refine (hsorted.and hnodup).imp ?_
  rintro a b ⟨hle, hne⟩
  exact lt_of_le_of_ne (of_decide_eq_true hle) hne

/-- The scan agrees with the types: it lists exactly the models from whose interfaces some type is
built, each once and in the order in which the types come, and those among them dangle, in
increasing order, that the resource does not hold. -/
theorem scan_eq_named_models (resource : Resource) :
    FirstSeen (resource.typeForms.filterMap model?) resource.referencedModels ∧
      (∀ id, id ∈ resource.referencedModels ↔ id ≠ "" ∧ Builds resource id) ∧
      resource.danglingReferences.Pairwise (· < ·) ∧
      ∀ id, id ∈ resource.danglingReferences ↔
        (id ≠ "" ∧ Builds resource id) ∧ id ∉ resource.models.keys := by
  have hseen : FirstSeen resource.refs resource.referencedModels :=
    firstSeen_eraseDups resource.refs
  have hmem : ∀ id, id ∈ resource.referencedModels ↔ id ≠ "" ∧ Builds resource id :=
    fun id => (hseen.mem_iff id).trans (mem_refs_iff_builds resource id)
  refine ⟨?_, hmem, pairwise_lt_danglingReferences resource, ?_⟩
  · rw [← Resource.refs_eq_forms]
    exact hseen
  · intro id
    rw [mem_danglingReferences_iff, hmem]

end ApiClientGen.ReferenceScan
