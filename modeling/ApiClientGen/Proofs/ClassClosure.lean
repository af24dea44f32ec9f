import ApiClientGen.Declaration.ClientClass
import ApiClientGen.Proofs.ReferenceScan
import Mathlib.Data.List.Infix

/-!
Which interfaces a class file declares. A file that holds its interfaces itself declares one for
each model of the resource, under the id of the model. A strict check looks references up among
the keys of the models, so that it closes the file only where the keys are the ids.
-/
namespace ApiClientGen.ClassClosure

open Declaration Text ReferenceScan

/-- The two lines that open the declaration of an interface: of a model and of options. -/
def openings (name : String) : List String :=
  ["export interface " ++ name ++ " \x7b",
    "export interface " ++ name ++ " extends IOperationOptions \x7b"]

/-- A text declares an interface if one of its lines opens the declaration. -/
def Declares (text name : String) : Prop :=
  ∃ opening ∈ openings name, ∃ before after, text = unlines before ++ (opening ++ "\n") ++ after

theorem declares_of_mem {lines : List String} {name opening : String}
    (hopening : opening ∈ openings name) (hline : opening ∈ lines) :
    Declares (unlines lines) name := by
  obtain ⟨before, after, rfl⟩ := List.append_of_mem hline
  refine ⟨opening, hopening, before, unlines after, ?_⟩
  rw [unlines_append, unlines_cons, ← String.append_assoc]

/-- A text that declares an interface holds the words of the opening. -/
theorem infix_of_declares {lines : List String} {name : String}
    (h : Declares (unlines lines) name) :
    ("export interface " ++ name ++ " ").toList <:+:
      lines.flatMap fun line => line.toList ++ ['\n'] := by
  obtain ⟨opening, hopening, before, after, htext⟩ := h
  rw [← toList_unlines, htext]
  obtain ⟨rest, rfl⟩ : ∃ rest, opening = "export interface " ++ name ++ " " ++ rest := by
    simp only [openings, List.mem_cons, List.not_mem_nil, or_false] at hopening
    rcases hopening with rfl | rfl
    · exact ⟨"\x7b", by simp only [String.append_assoc]; rfl⟩
    · exact ⟨"extends IOperationOptions \x7b", by simp only [String.append_assoc]; rfl⟩
  refine ⟨(unlines before).toList, rest.toList ++ '\n' :: after.toList, ?_⟩
  simp

/-- The class file of a resource declares the interface of each of its models. -/
theorem declares_model {resource : Resource} {model : Model}
    (hmodel : model ∈ resource.models.values) (docs : Bool) (className : String) :
    Declares (classText false docs className resource) model.interfaceName := by
  apply declares_of_mem (List.mem_cons_self ..)
  have hinterface : "export interface " ++ model.interfaceName ++ " \x7b" ∈
      spaced (interfaceOf false model).lines := by
    simp [spaced, Interface.lines, Interface.body, interfaceOf]
  rw [ClientClass.lines, classOf, if_neg Bool.false_ne_true, Surroundings.lines]
  refine List.mem_append_left _ (List.mem_append_left _ (List.mem_cons_of_mem _ ?_))
  rw [List.flatMap_map]
  exact List.mem_flatMap.mpr ⟨model, hmodel, hinterface⟩

/-- A class file that passes the strict check declares every interface from which one of its types
is built, provided that the models to which it refers bear the ids under which they are kept. -/
theorem strict_class_declares_named_models (resource : Resource) (docs : Bool)
    (className : String) (hstrict : resource.danglingReferences = [])
    (hkeys : ∀ id ∈ resource.referencedModels, ∀ model ∈ resource.models.find? id,
      model.id = some id) :
    ∀ id, id ≠ "" → Builds resource id →
      Declares (classText false docs className resource) (Naming.interfaceName (some id)) := by
  intro id hid hbuilds
  have hreferenced : id ∈ resource.referencedModels :=
    ((firstSeen_eraseDups resource.refs).mem_iff id).mpr
      ((mem_refs_iff_builds resource id).mpr ⟨hid, hbuilds⟩)
  have hkey : id ∈ resource.models.keys := by
    by_contra hmissing
    have hdangling := (mem_danglingReferences_iff resource id).mpr ⟨hreferenced, hmissing⟩
    rw [hstrict] at hdangling
    cases hdangling
  obtain ⟨model, hfind⟩ :=
    Option.isSome_iff_exists.mp ((resource.models.find?_isSome_iff id).mpr hkey)
  have hname : model.interfaceName = Naming.interfaceName (some id) := by
    rw [Model.interfaceName, hkeys id hreferenced model hfind]
  rw [← hname]
  exact declares_model (OrderedMap.mem_values_of_find?_eq_some hfind) docs className

/-- A model that refers to itself by the key `Pet`, under an id of its own or under none. -/
def selfReferring (id : Option String) : Resource where
  models := OrderedMap.empty.put "Pet"
    { id := id
      properties := OrderedMap.empty.put "parent" { ref := some "Pet" } }

theorem strict_class_declares_pet :
    ((selfReferring (some "Pet")).danglingReferences = [] ∧
      Builds (selfReferring (some "Pet")) "Pet") ∧
    Declares (classText false true "Pets" (selfReferring (some "Pet"))) "IPet" := by
  have hstrict : (selfReferring (some "Pet")).danglingReferences = [] := by decide +kernel
  have hbuilds : Builds (selfReferring (some "Pet")) "Pet" :=
    Or.inl ⟨_, List.mem_cons_self .., _, List.mem_cons_self .., 0, rfl, rfl⟩
  refine ⟨⟨hstrict, hbuilds⟩, ?_⟩
  exact strict_class_declares_named_models (selfReferring (some "Pet")) true "Pets" hstrict
    (by decide +kernel) "Pet" (by decide) hbuilds

/-- Without an id the model is declared under the name of the unknown type, while the type of its
property is built from the key that the strict check found. -/
theorem strict_class_misses_unnamed_model :
    (selfReferring none).danglingReferences = [] ∧ Builds (selfReferring none) "Pet" ∧
      ¬ Declares (classText false true "Pets" (selfReferring none)) "IPet" := by
  refine ⟨by decide +kernel, ?_, ?_⟩
  · exact Or.inl ⟨_, List.mem_cons_self .., _, List.mem_cons_self .., 0, rfl, rfl⟩
  · intro hdeclares
    have hinfix := infix_of_declares hdeclares
    revert hinfix
    decide +kernel

end ApiClientGen.ClassClosure
