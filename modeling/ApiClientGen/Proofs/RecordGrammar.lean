import ApiClientGen.Proofs.DistinctKeys
import ApiClientGen.Schema.Decode
import ApiClientGen.Schema.Encode
import Mathlib.Data.List.Nodup

/-!
The grammar of the records, apart from their readers. A value has to be of a shape: its own kind
may be at fault, and it has parts of shapes of their own, each one step away. A field that a
record needs and has not is a part as well, at the place where it is missing. So a document
departs from the grammar at a place if the steps of the place lead through parts to one that is at
fault, and these places have an order: that of the parts, outside in.
-/
namespace ApiClientGen.RecordGrammar

open DistinctKeys Schema

/-- What a value has to be. `above` counts the properties of the same chain that stand around a
property. -/
inductive Shape
  | text
  | location
  | flag
  | record (kind : RecordKind) (above : Nat)
  | nullable (inner : Shape)
  | list (item : Shape)
  | mapping (value : Shape)

/-- A field of a record: its name on the wire, its plain name, and what its value has to be. -/
structure FieldRule where
  wire : String
  plain : String
  required : Bool
  shape : Shape

def FieldRule.optional (wire plain : String) (shape : Shape) : FieldRule :=
  ⟨wire, plain, false, shape⟩

def FieldRule.needed (name : String) (shape : Shape) : FieldRule := ⟨name, name, true, shape⟩

def Shape.texts : Shape := .list .text

open FieldRule in
/-- The fields of a kind of record, in the order of their declaration. -/
def rules : RecordKind → Nat → List FieldRule
  | .listing, _ => [
    optional "apiVersion" "api_version" (.nullable .text),
    optional "swaggerVersion" "swagger_version" (.nullable .text),
    optional "basePath" "base_path" (.nullable .text),
    needed "apis" (.list (.record .listingEntry 0))]
  | .listingEntry, _ => [
    needed "path" .text,
    optional "description" "description" (.nullable .text)]
  | .resource, _ => [
    optional "apiVersion" "api_version" (.nullable .text),
    optional "swaggerVersion" "swagger_version" (.nullable .text),
    optional "basePath" "base_path" .text,
    optional "resourcePath" "resource_path" (.nullable .text),
    optional "description" "description" (.nullable .text),
    optional "models" "models" (.mapping (.record .model 0)),
    optional "apis" "apis" (.list (.record .api 0))]
  | .api, _ => [
    needed "path" .text,
    optional "description" "description" (.nullable .text),
    optional "operations" "operations" (.list (.record .operation 0))]
  | .operation, _ => [
    needed "method" .text,
    needed "nickname" .text,
    optional "summary" "summary" (.nullable .text),
    optional "notes" "notes" (.nullable .text),
    optional "type" "type" (.nullable .text),
    optional "items" "items" (.nullable (.record .property 0)),
    optional "parameters" "parameters" (.list (.record .parameter 0))]
  | .parameter, _ => [
    needed "name" .text,
    optional "paramType" "param_type" (.nullable .location),
    optional "required" "required" .flag,
    optional "enum" "enum" (.nullable .texts),
    optional "description" "description" (.nullable .text),
    optional "type" "type" (.nullable .text),
    optional "format" "format" (.nullable .text)]
  | .model, _ => [
    optional "id" "id" (.nullable .text),
    optional "description" "description" (.nullable .text),
    optional "required" "required" .texts,
    optional "properties" "properties" (.mapping (.record .property 0))]
  | .property, above => [
    optional "type" "type" (.nullable .text),
    optional "$ref" "ref" (.nullable .text),
    optional "items" "items" (.nullable (.record .property (above + 1))),
    optional "description" "description" (.nullable .text),
    optional "format" "format" (.nullable .text),
    optional "enum" "enum" (.nullable .texts)]

/-- A property around which there are as many as a chain may have. -/
def TooDeep (kind : RecordKind) (above : Nat) : Prop := kind = .property ∧ chainLimit ≤ above

instance (kind : RecordKind) (above : Nat) : Decidable (TooDeep kind above) :=
  inferInstanceAs (Decidable (_ ∧ _))

def flagWords : List String :=
  ["0", "off", "f", "false", "n", "no", "1", "on", "t", "true", "y", "yes"]

/-- A truth value, a number that is zero or one, or a word for either. -/
def IsFlag : Json → Prop
  | .bool _ => True
  | .int n => n = 0 ∨ n = 1
  | .float x => x.toInt? = some 0 ∨ x.toInt? = some 1
  | .string text => ∃ word ∈ flagWords, text.toList.map Char.toLower = word.toList
  | _ => False

/-- A value at which a reader of flags looks closer: a text, or an integer within the bounds of 64
bits. -/
def Legible : Json → Prop
  | .int n => -wordLimit ≤ n ∧ n < wordLimit
  | .float x => ∃ n, x.toInt? = some n ∧ -wordLimit < n ∧ n < wordLimit
  | .string _ => True
  | _ => False

/-- What is wrong with a value itself that has to be of a shape. -/
inductive Fault : Shape → Json → Cause → Prop
  | notText {data : Json} (h : ∀ text, data ≠ .string text) : Fault .text data .notText
  | notLocation {data : Json} (h : ∀ location, data ≠ .string (Location.word location)) :
    Fault .location data .notLocation
  | notFlag {data : Json} (h : ¬ IsFlag data) (hlegible : ¬ Legible data) :
    Fault .flag data .notFlag
  | unreadableFlag {data : Json} (h : ¬ IsFlag data) (hlegible : Legible data) :
    Fault .flag data .unreadableFlag
  | notRecord {kind : RecordKind} {above : Nat} {data : Json} (hdepth : ¬ TooDeep kind above)
    (h : ∀ fields, data ≠ .object fields) : Fault (.record kind above) data (.notRecord kind)
  | tooDeep {kind : RecordKind} {above : Nat} {data : Json} (hdepth : TooDeep kind above) :
    Fault (.record kind above) data .tooDeep
  | nullable {inner : Shape} {data : Json} {cause : Cause} (hnull : data ≠ .null)
    (h : Fault inner data cause) : Fault (.nullable inner) data cause
  | notList {item : Shape} {data : Json} (h : ∀ items, data ≠ .list items) :
    Fault (.list item) data .notList
  | notMapping {value : Shape} {data : Json} (h : ∀ fields, data ≠ .object fields) :
    Fault (.mapping value) data .notMapping

/-- What stands one step inside a value: a value of some shape, or nothing where a field is
needed. -/
inductive Part
  | value (shape : Shape) (data : Json)
  | absent

/-- The part that a field of a record is. -/
def fieldParts (fields : Fields) (rule : FieldRule) : List (Step × Part) :=
  match field? fields rule.wire rule.plain with
  | some (key, data) => [(.key key, .value rule.shape data)]
  | none => if rule.required then [(.key rule.wire, .absent)] else []

/-- The parts of a value that has to be of a shape, in order. -/
def parts : Shape → Json → List (Step × Part)
  | .nullable inner, data =>
    match data with
    | .null => []
    | _ => parts inner data
  | .list item, .list items =>
    (indexed 0 items).map fun entry => (entry.1, .value item entry.2)
  | .mapping value, .object fields =>
    fields.map fun field => (.key field.1, .value value field.2)
  | .record kind above, .object fields =>
    if TooDeep kind above then [] else (rules kind above).flatMap (fieldParts fields)
  | _, _ => []

/-- The places at which a part is at fault, with what is wrong there. -/
inductive Departs : Part → Place → Cause → Prop
  | absent : Departs .absent [] .missing
  | here {shape : Shape} {data : Json} {cause : Cause} (h : Fault shape data cause) :
    Departs (.value shape data) [] cause
  | inside {shape : Shape} {data : Json} {step : Step} {part : Part} {place : Place}
    {cause : Cause} (hpart : (step, part) ∈ parts shape data) (h : Departs part place cause) :
    Departs (.value shape data) (step :: place) cause

/-- The order of the places in a part: that of the parts they lead into, and where these are the
same, the order there. -/
inductive Before : Part → Place → Place → Prop
  | apart {shape : Shape} {data : Json} {first second : Step × Part} {left right : Place}
    (h : [first, second].Sublist (parts shape data)) :
    Before (.value shape data) (first.1 :: left) (second.1 :: right)
  | inside {shape : Shape} {data : Json} {step : Step} {part : Part} {left right : Place}
    (hpart : (step, part) ∈ parts shape data) (h : Before part left right) :
    Before (.value shape data) (step :: left) (step :: right)

def step? : Step → Json → Option Json
  | .key name, .object fields => Entries.find? name fields
  | .index n, .list items => items[n]?
  | _, _ => none

def valueAt? (data : Json) : Place → Option Json
  | [] => some data
  | step :: place => (step? step data).bind (valueAt? · place)

/-- The place leads to a value, or to a key that a record there needs and has not. -/
inductive Leads (data : Json) : Place → Prop
  | value {place : Place} {found : Json} (h : valueAt? data place = some found) : Leads data place
  | absent {place : Place} {fields : Fields} {kind : RecordKind} {above : Nat} {rule : FieldRule}
    (h : valueAt? data place = some (.object fields)) (hrule : rule ∈ rules kind above)
    (hrequired : rule.required = true) (hkey : Entries.find? rule.wire fields = none) :
    Leads data (place ++ [.key rule.wire])

section

variable {shape inner : Shape} {part : Part} {data found : Json} {step : Step} {place : Place}
  {cause : Cause} {fields : Fields} {kind : RecordKind} {above : Nat} {rule : FieldRule}

/-! ### The names of the fields -/

/-- Two fields that share no name. -/
def Apart (first second : FieldRule) : Prop :=
  first.wire ≠ second.wire ∧ first.wire ≠ second.plain ∧ first.plain ≠ second.wire ∧
    first.plain ≠ second.plain

theorem apart_rules (kind : RecordKind) (above : Nat) : (rules kind above).Pairwise Apart := by
  cases kind <;> simp [rules, Apart, FieldRule.optional, FieldRule.needed]

theorem find?_of_field? {wire plain key : String}
    (h : field? fields wire plain = some (key, data)) :
    Entries.find? key fields = some data ∧ (key = wire ∨ key = plain) := by
  rw [field?] at h
  split at h
  · rename_i hwire
    cases h
    exact ⟨hwire, .inl rfl⟩
  · obtain ⟨value, hplain, heq⟩ := Option.map_eq_some_iff.mp h
    cases heq
    exact ⟨hplain, .inr rfl⟩

theorem find?_of_field?_eq_none {wire plain : String} (h : field? fields wire plain = none) :
    Entries.find? wire fields = none := by
  rw [field?] at h
  split at h
  · cases h
  · assumption

theorem step_of_mem_fieldParts {entry : Step × Part} (h : entry ∈ fieldParts fields rule) :
    entry.1 = .key rule.wire ∨ entry.1 = .key rule.plain := by
  rw [fieldParts] at h
  split at h
  · rename_i key data hfield
    obtain rfl := List.mem_singleton.mp h
    exact (find?_of_field? hfield).2.imp (congrArg Step.key) (congrArg Step.key)
  · split at h
    · exact .inl (congrArg Prod.fst (List.mem_singleton.mp h))
    · cases h

theorem nodup_steps_fieldParts (fields : Fields) (rule : FieldRule) :
    ((fieldParts fields rule).map Prod.fst).Nodup := by
  rw [fieldParts]
  split
  · exact List.nodup_singleton _
  · split
    · exact List.nodup_singleton _
    · exact List.nodup_nil

theorem disjoint_steps_fieldParts {first second : FieldRule} (h : Apart first second) :
    ((fieldParts fields first).map Prod.fst).Disjoint
      ((fieldParts fields second).map Prod.fst) := by
  intro step hfirst hsecond
  obtain ⟨left, hleft, rfl⟩ := List.mem_map.mp hfirst
  obtain ⟨right, hright, heq⟩ := List.mem_map.mp hsecond
  obtain ⟨hww, hwp, hpw, hpp⟩ := h
  rcases step_of_mem_fieldParts hleft with hl | hl <;>
    rcases step_of_mem_fieldParts hright with hr | hr <;>
    · rw [hl, hr, Step.key.injEq] at heq
      simp_all

/-! ### The parts of a value -/

theorem mem_indexed_iff {α : Type} {start : Nat} {items : List α} {step : Step} {item : α} :
    (step, item) ∈ indexed start items ↔
      ∃ n, step = .index (start + n) ∧ items[n]? = some item := by
  induction items generalizing start with
  | nil => simp [indexed]
  | cons first rest ih =>
    rw [indexed, List.mem_cons, ih]
    constructor
    · rintro (heq | ⟨n, rfl, hrest⟩)
      · cases heq
        exact ⟨0, rfl, rfl⟩
      · exact ⟨n + 1, by rw [Nat.add_assoc, Nat.add_comm 1 n], hrest⟩
    · rintro ⟨n, rfl, hitem⟩
      cases n with
      | zero =>
        cases hitem
        exact .inl rfl
      | succ n => exact .inr ⟨n, by rw [Nat.add_assoc, Nat.add_comm 1 n], hitem⟩

theorem nodup_steps_indexed {α : Type} (start : Nat) (items : List α) :
    ((indexed start items).map Prod.fst).Nodup := by
  induction items generalizing start with
  | nil => exact List.nodup_nil
  | cons first rest ih =>
    rw [indexed, List.map_cons, List.nodup_cons]
    refine ⟨fun hmem => ?_, ih (start + 1)⟩
    obtain ⟨⟨step, item⟩, hentry, heq⟩ := List.mem_map.mp hmem
    obtain ⟨n, rfl, -⟩ := mem_indexed_iff.mp hentry
    have hindex := Step.index.inj heq
    omega

/-- The steps to the parts of a value are distinct: the fields of a record share no names. -/
theorem nodup_steps_parts (shape : Shape) (hdata : Distinct data) :
    ((parts shape data).map Prod.fst).Nodup := by
  induction shape with
  | nullable inner ih =>
    cases data with
    | null => exact List.nodup_nil
    | _ => exact ih
  | list item _ =>
    cases data with
    | list items =>
      rw [parts, List.map_map]
      exact nodup_steps_indexed 0 items
    | _ => exact List.nodup_nil
  | mapping value _ =>
    cases hdata with
    | object hkeys _ =>
      rw [parts, List.map_map]
      have hinj : Function.Injective Step.key := fun _ _ heq => Step.key.inj heq
      have hsteps := hkeys.map hinj
      rwa [List.map_map] at hsteps
    | _ => exact List.nodup_nil
  | record kind above =>
    cases data with
    | object fields =>
      rw [parts]
      split
      · exact List.nodup_nil
      · rw [List.map_flatMap, List.nodup_flatMap]
        exact ⟨fun rule _ => nodup_steps_fieldParts fields rule,
          (apart_rules kind above).imp disjoint_steps_fieldParts⟩
    | _ => exact List.nodup_nil
  | _ => exact List.nodup_nil

theorem step?_of_mem_parts (hdata : Distinct data)
    (h : (step, .value inner found) ∈ parts shape data) :
    step? step data = some found ∧ Distinct found := by
  induction shape with
  | nullable inner ih =>
    cases data with
    | null => cases h
    | _ => exact ih h
  | list item _ =>
    cases hdata with
    | list hitems =>
      obtain ⟨⟨_, _⟩, hentry, heq⟩ := List.mem_map.mp h
      cases heq
      obtain ⟨n, rfl, hitem⟩ := mem_indexed_iff.mp hentry
      rw [Nat.zero_add]
      exact ⟨hitem, hitems _ (List.mem_of_getElem? hitem)⟩
    | _ => cases h
  | mapping value _ =>
    cases hdata with
    | object hkeys hfields =>
      obtain ⟨⟨_, _⟩, hentry, heq⟩ := List.mem_map.mp h
      cases heq
      exact ⟨Entries.find?_eq_some_of_mem hkeys hentry, hfields _ hentry⟩
    | _ => cases h
  | record kind above =>
    cases hdata with
    | object _ hfields =>
      rw [parts] at h
      split at h
      · cases h
      · obtain ⟨rule, -, hmem⟩ := List.mem_flatMap.mp h
        rw [fieldParts] at hmem
        split at hmem
        · rename_i hfield
          cases List.mem_singleton.mp hmem
          have hfind := (find?_of_field? hfield).1
          exact ⟨hfind, hfields _ (Entries.mem_of_find?_eq_some hfind)⟩
        · split at hmem
          · cases List.mem_singleton.mp hmem
          · cases hmem
    | _ => cases h
  | _ => cases h

theorem exists_rule_of_absent (h : (step, .absent) ∈ parts shape data) :
    ∃ fields kind above, ∃ rule ∈ rules kind above, data = .object fields ∧
      step = .key rule.wire ∧ rule.required = true ∧ Entries.find? rule.wire fields = none := by
  induction shape with
  | nullable inner ih =>
    cases data with
    | null => cases h
    | _ => exact ih h
  | list item _ =>
    cases data with
    | list items =>
      obtain ⟨_, -, heq⟩ := List.mem_map.mp h
      cases heq
    | _ => cases h
  | mapping value _ =>
    cases data with
    | object fields =>
      obtain ⟨_, -, heq⟩ := List.mem_map.mp h
      cases heq
    | _ => cases h
  | record kind above =>
    cases data with
    | object fields =>
      rw [parts] at h
      split at h
      · cases h
      · obtain ⟨rule, hrule, hmem⟩ := List.mem_flatMap.mp h
        rw [fieldParts] at hmem
        split at hmem
        · cases List.mem_singleton.mp hmem
        · rename_i hfield
          split at hmem
          · rename_i hrequired
            cases List.mem_singleton.mp hmem
            exact ⟨fields, kind, above, rule, hrule, rfl, rfl, hrequired,
              find?_of_field?_eq_none hfield⟩
          · cases hmem
    | _ => cases h
  | _ => cases h

/-! ### Places -/

/-- What a part says about the document in it: its objects have distinct keys. -/
def Part.Distinct : Part → Prop
  | .value _ data => DistinctKeys.Distinct data
  | .absent => True

theorem Part.Distinct.of_mem_parts (hdata : DistinctKeys.Distinct data)
    (h : (step, part) ∈ parts shape data) : part.Distinct := by
  cases part with
  | value inner found => exact (step?_of_mem_parts hdata h).2
  | absent => trivial

/-- No place comes before itself. -/
theorem Before.ne {left right : Place} (h : Before part left right) (hpart : part.Distinct) :
    left ≠ right := by
  induction h with
  | apart hsublist =>
    have hsteps := (hsublist.map Prod.fst).nodup (nodup_steps_parts _ hpart)
    intro heq
    rw [List.cons_eq_cons] at heq
    simp [heq.1] at hsteps
  | inside hmem _ ih =>
    intro heq
    exact ih (Part.Distinct.of_mem_parts hpart hmem) (List.cons_eq_cons.mp heq).2

theorem Leads.outward (h : Leads found place) (hstep : step? step data = some found) :
    Leads data (step :: place) := by
  cases h with
  | value hfound => exact .value (by rw [valueAt?, hstep]; exact hfound)
  | absent hfields hrule hrequired hkey =>
    rw [← List.cons_append]
    exact .absent (by rw [valueAt?, hstep]; exact hfields) hrule hrequired hkey

/-- Where a document departs from the grammar there is a value, or a key is missing that has to be
there. -/
theorem Departs.leads (h : Departs (.value shape data) place cause) (hdata : Distinct data) :
    Leads data place := by
  generalize hpart : Part.value shape data = part at h
  induction h generalizing shape data with
  | absent => cases hpart
  | here =>
    cases hpart
    exact .value rfl
  | @inside _ _ step part _ _ hmem hinside ih =>
    cases hpart
    cases part with
    | value inner found =>
      obtain ⟨hstep, hfound⟩ := step?_of_mem_parts hdata hmem
      exact (ih hfound rfl).outward hstep
    | absent =>
      obtain ⟨fields, kind, above, rule, hrule, rfl, rfl, hrequired, hkey⟩ :=
        exists_rule_of_absent hmem
      cases hinside
      have hmissing : Leads (.object fields) ([] ++ [.key rule.wire]) :=
        .absent rfl hrule hrequired hkey
      exact hmissing

end

end ApiClientGen.RecordGrammar
