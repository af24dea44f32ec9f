/-!
How a document departs from the shape of a record: a place in the document and what is wrong
there.
-/
namespace ApiClientGen.Schema

inductive Step
  | key (name : String)
  | index (n : Nat)
  deriving DecidableEq, Repr

/-- A place in a document, as the steps that lead to it. -/
abbrev Place := List Step

def Step.text : Step → String
  | .key name => name
  | .index n => toString n

def placeText (place : Place) : String :=
  match String.intercalate "." (place.map Step.text) with
  | "" => "<root>"
  | text => text

inductive RecordKind
  | listing
  | listingEntry
  | resource
  | api
  | operation
  | parameter
  | model
  | property
  deriving DecidableEq, Repr

def RecordKind.name : RecordKind → String
  | .listing => "SchemaIndex"
  | .listingEntry => "ResourceRef"
  | .resource => "Resource"
  | .api => "ApiOperations"
  | .operation => "Operation"
  | .parameter => "Parameter"
  | .model => "Model"
  | .property => "ModelProperty"

inductive Cause
  | notRecord (kind : RecordKind)
  | notText
  | notList
  | notMapping
  | notLocation
  | notFlag
  | unreadableFlag
  | missing
  | tooDeep
  deriving DecidableEq, Repr

def Cause.message : Cause → String
  | .notRecord kind => "Input should be a valid dictionary or instance of " ++ kind.name
  | .notText => "Input should be a valid string"
  | .notList => "Input should be a valid list"
  | .notMapping => "Input should be a valid dictionary"
  | .notLocation => "Input should be 'query', 'path', 'body', 'header' or 'form'"
  | .notFlag => "Input should be a valid boolean"
  | .unreadableFlag => "Input should be a valid boolean, unable to interpret input"
  | .missing => "Field required"
  | .tooDeep => "Recursion error - maximum validation depth exceeded"

structure Violation where
  place : Place
  cause : Cause
  deriving DecidableEq, Repr

/-- The same departure, seen from one step further out. -/
def Violation.under (step : Step) (violation : Violation) : Violation :=
  { violation with place := step :: violation.place }

def Violation.text (violation : Violation) : String :=
  placeText violation.place ++ ": " ++ violation.cause.message

def violationsText (violations : List Violation) : String :=
  String.intercalate "; " (violations.map Violation.text)

/-- A value, or all departures that stand in its way. -/
inductive Checked (α : Type)
  | good (value : α)
  | bad (violations : List Violation)

namespace Checked

variable {α β : Type}

def fail (cause : Cause) : Checked α := .bad [⟨[], cause⟩]

def violations : Checked α → List Violation
  | .good _ => []
  | .bad found => found

def under (step : Step) : Checked α → Checked α
  | .good value => .good value
  | .bad found => .bad (found.map (Violation.under step))

/-- Both checks; the departures of the first come first. -/
def apply (f : Checked (α → β)) (x : Checked α) : Checked β :=
  match f, x with
  | .good f, .good x => .good (f x)
  | f, x => .bad (f.violations ++ x.violations)

instance : Applicative Checked where
  pure := .good
  seq f x := f.apply (x ())

def traverse (check : α → Checked β) : List (Step × α) → Checked (List β)
  | [] => .good []
  | (step, value) :: rest => List.cons <$> (check value).under step <*> traverse check rest

@[simp] theorem map_good (f : α → β) (value : α) :
    f <$> Checked.good value = .good (f value) := rfl

@[simp] theorem seq_good (f : α → β) (value : α) :
    Checked.good f <*> Checked.good value = .good (f value) := rfl

@[simp] theorem under_good (step : Step) (value : α) :
    (Checked.good value).under step = .good value := rfl

theorem seq_eq_good_iff {f : Checked (α → β)} {x : Checked α} {value : β} :
    f <*> x = .good value ↔ ∃ g a, f = .good g ∧ x = .good a ∧ g a = value := by
  constructor
  · intro h
    cases f with
    | bad found => cases h
    | good g =>
      cases x with
      | bad found => cases h
      | good a =>
        cases h
        exact ⟨g, a, rfl, rfl, rfl⟩
  · rintro ⟨g, a, rfl, rfl, rfl⟩
    rfl

theorem map_eq_good_iff {f : α → β} {x : Checked α} {value : β} :
    f <$> x = .good value ↔ ∃ a, x = .good a ∧ f a = value := by
  constructor
  · intro h
    cases x with
    | bad found => cases h
    | good a =>
      cases h
      exact ⟨a, rfl, rfl⟩
  · rintro ⟨a, rfl, rfl⟩
    rfl

theorem under_eq_good_iff {step : Step} {x : Checked α} {value : α} :
    x.under step = .good value ↔ x = .good value := by
  cases x <;> simp [under]

@[simp] theorem violations_good (value : α) : (Checked.good value).violations = [] := rfl

@[simp] theorem violations_fail (cause : Cause) :
    (fail cause : Checked α).violations = [⟨[], cause⟩] := rfl

@[simp] theorem violations_seq (f : Checked (α → β)) (x : Checked α) :
    (f <*> x).violations = f.violations ++ x.violations := by
  cases f with
  | bad found => rfl
  | good g => cases x <;> rfl

@[simp] theorem violations_map (f : α → β) (x : Checked α) :
    (f <$> x).violations = x.violations := by
  cases x <;> rfl

@[simp] theorem violations_under (step : Step) (x : Checked α) :
    (x.under step).violations = x.violations.map (Violation.under step) := by
  cases x <;> rfl

end Checked

end ApiClientGen.Schema
