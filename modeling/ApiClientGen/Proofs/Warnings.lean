import ApiClientGen.Proofs.RequestTrail

/-!
What a run warns of. The check of references passes without a word, fails, or warns; nothing else
writes to the channel of warnings, so that it shows one line for each check that found something,
in the order of the checks.
-/
namespace ApiClientGen.Warnings

open Generate KeptDocuments OutputFiles RequestTrail Run RunEffect RunSteps

variable {name : String} {resource : Resource} {strict : Bool} {settings : Settings}
  {cache : Path} {client : Web.Client} {world between after : World}

section Check

/-- Nothing is said if no reference dangles. -/
theorem checkReferences_of_nil (h : resource.danglingReferences = []) :
    checkReferences name resource strict = pure [] := by
  rw [checkReferences, h]
  rfl

theorem checkReferences_strict (h : resource.danglingReferences ≠ []) :
    checkReferences name resource true = throw (.dangling name resource.danglingReferences) := by
  rw [checkReferences]
  simp only [List.isEmpty_iff, if_neg h, if_true]

/-- A lax check warns of what dangles and goes on. -/
theorem checkReferences_lax (h : resource.danglingReferences ≠ []) :
    checkReferences name resource false = (do
      Run.warn ("warning: " ++ Failure.danglingText name resource.danglingReferences)
      return resource.danglingReferences) := by
  rw [checkReferences]
  simp only [List.isEmpty_iff, if_neg h, Bool.false_eq_true, if_false]

/-- The check fails only if it is strict and finds something, and then it changes nothing. -/
theorem ends_checkReferences_error_iff {failure : Failure} :
    Ends (checkReferences name resource strict) world (.error failure) after ↔
      strict = true ∧ resource.danglingReferences ≠ [] ∧
        failure = .dangling name resource.danglingReferences ∧ after = world := by
  by_cases hnil : resource.danglingReferences = []
  · simp [checkReferences_of_nil hnil, ends_pure_iff, hnil]
  cases strict with
  | true => simp [checkReferences_strict hnil, ends_throw_iff, hnil]
  | false =>
    rw [checkReferences_lax hnil, ends_bind_iff]
    simp [ends_warn_iff, ends_pure_iff]

end Check

/-- A warning: the name of a class, and the ids to which its references dangle. -/
structure Warning where
  name : String
  missing : List String

def Warning.line (warning : Warning) : String :=
  "warning: " ++ Failure.danglingText warning.name warning.missing ++ "\n"

def warningsText : List Warning → String
  | [] => ""
  | warning :: rest => warning.line ++ warningsText rest

theorem warningsText_append (first second : List Warning) :
    warningsText (first ++ second) = warningsText first ++ warningsText second := by
  induction first with
  | nil => exact (String.empty_append).symm
  | cons warning rest ih =>
    rw [List.cons_append, warningsText, warningsText, ih, String.append_assoc]

/-- No warning is an empty text. -/
theorem append_warningsText_eq_self_iff {text : String} {warned : List Warning} :
    text ++ warningsText warned = text ↔ warned = [] := by
  constructor
  · intro h
    cases warned with
    | nil => rfl
    | cons warning rest =>
      have hlength := congrArg String.length h
      have hline : 0 < warning.line.length := by
        rw [Warning.line, String.length_append]
        exact Nat.lt_add_left _ (by decide)
      rw [warningsText, String.length_append, String.length_append] at hlength
      omega
  · rintro rfl
    exact String.append_empty

/-- From one world to another some warnings are shown, and nothing else of that kind. -/
def Warns (warned : List Warning) (before after : World) : Prop :=
  after.stderr = before.stderr ++ warningsText warned

theorem Warns.append {first second : List Warning} (h : Warns first world between)
    (hnext : Warns second between after) : Warns (first ++ second) world after := by
  rw [Warns, hnext, h, warningsText_append, String.append_assoc]

theorem warns_nil (h : after.stderr = world.stderr) : Warns [] world after :=
  h.trans String.append_empty.symm

theorem prints_warns_nil : Prints (Warns []) := by
  refine ⟨⟨fun _ => warns_nil rfl, Warns.append⟩, ?_⟩
  intro line world outcome after hends
  obtain ⟨-, rfl⟩ := ends_printLine_iff.mp hends
  exact warns_nil rfl

section Silent

theorem FilesOnly.warns_nil (h : FilesOnly world after) : Warns [] world after := by
  obtain ⟨_, rfl⟩ := h
  exact Warnings.warns_nil rfl

/-- Fetching warns of nothing. -/
theorem leaves_fetch (url : String) : Leaves (Warns []) (Fetch.json cache client url) := by
  have hR := prints_warns_nil
  have hlookUp := (leaves_lookUp cache url).mono FilesOnly.warns_nil
  refine hR.leaves_bind hlookUp fun found => ?_
  cases found with
  | some body => exact hR.leaves_ofExcept id _
  | none =>
    have hbody : Leaves (Warns []) (Web.getBody client url) := by
      intro world outcome after hends
      obtain ⟨later, rfl, -⟩ := askedFor_of_getBody hends
      exact Warnings.warns_nil rfl
    refine hR.leaves_bind (hR.line _) fun _ => ?_
    refine hR.leaves_bind hbody fun body => ?_
    refine hR.leaves_bind (hR.leaves_ofExcept id _) fun value => ?_
    have hkeep := (leaves_keep cache url body).mono FilesOnly.warns_nil
    exact hR.leaves_bind hkeep fun _ => hR.leaves_pure _

/-- Writing a text warns of nothing. -/
theorem leaves_draft (draft : Draft) : Leaves (Warns []) (writeText draft.1 draft.2) :=
  (leaves_text _ _).mono FilesOnly.warns_nil

end Silent

theorem warns_of_warn {missing : List String} {outcome : Except Failure Unit}
    (h : Ends (Run.warn ("warning: " ++ Failure.danglingText name missing)) world outcome after) :
    Warns [⟨name, missing⟩] world after := by
  obtain ⟨-, rfl⟩ := ends_warn_iff.mp h
  rw [Warns, warningsText, warningsText, Warning.line, String.append_empty, String.append_assoc]

/-- The listing of a service and its resource, in which a reference dangles. -/
def ownerWorld : World where
  files := ⟨[], ⟨[(["a"], .file "\x7b\"apis\":[\x7b\"path\":\"b\"\x7d]\x7d".toUTF8),
    (["ab"], .file ("\x7b\"models\":\x7b\"\":\x7b\"id\":\"Pet\"," ++
      "\"properties\":\x7b\"x\":\x7b\"$ref\":\"Owner\"\x7d\x7d\x7d\x7d\x7d").toUTF8)], by decide⟩⟩
  server := fun _ _ => .failed .connectError ""

def ownerSettings : Settings where
  url := "a"
  dest := ⟨.here, []⟩
  cacheDir := ⟨.here, []⟩

end ApiClientGen.Warnings
