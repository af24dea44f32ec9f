import ApiClientGen.Fetch
import ApiClientGen.Proofs.RecordGrammar

/-!
The readers of the records report exactly the departures from their grammar, each once and in the
order of the places. A reader of a value with parts checks one part after the other and puts the
reports in a row; that is one lemma for lists, mappings and records alike. On it rests one lemma
for each reader, along the shapes.
-/
namespace ApiClientGen.RecordFaults

open RecordGrammar Schema

variable {α β : Type} {shape inner : Shape} {part : Part} {data : Json} {step : Step}
  {place : Place} {cause : Cause} {fields : Fields} {kind : RecordKind} {above : Nat}
  {rule : FieldRule} {read : Json → Checked α} {x : Checked α} {f : Checked (α → β)}
  {front back ps : List (Step × Part)}

def DepartsIn (ps : List (Step × Part)) (place : Place) (cause : Cause) : Prop :=
  ∃ step part inside, (step, part) ∈ ps ∧ place = step :: inside ∧ Departs part inside cause

def BeforeIn (ps : List (Step × Part)) (left right : Place) : Prop :=
  (∃ first second inLeft inRight, [first, second].Sublist ps ∧ left = first.1 :: inLeft ∧
    right = second.1 :: inRight) ∨
  ∃ step part inLeft inRight, (step, part) ∈ ps ∧ left = step :: inLeft ∧
    right = step :: inRight ∧ Before part inLeft inRight

/-- A check that reports what departs, in order, and only then has no value. -/
structure Reports (departs : Place → Cause → Prop) (before : Place → Place → Prop)
    (x : Checked α) : Prop where
  good : x.violations = [] → ∃ value, x = .good value
  exact : ∀ place cause, ⟨place, cause⟩ ∈ x.violations ↔ departs place cause
  ordered : x.violations.Pairwise fun first second => before first.place second.place

/-- A check of a value that has to be of a shape. -/
abbrev Judges (shape : Shape) (data : Json) (x : Checked α) : Prop :=
  Reports (Departs (.value shape data)) (Before (.value shape data)) x

abbrev JudgesParts (ps : List (Step × Part)) (x : Checked α) : Prop :=
  Reports (DepartsIn ps) (BeforeIn ps) x

/-- A reader of values that have to be of a shape. -/
abbrev Matches (read : Json → Checked α) (shape : Shape) : Prop :=
  ∀ data, Judges shape data (read data)

/-! ### Parts in a row -/

/-- What becomes of the value does not bear on the violations. -/
theorem Reports.map {departs : Place → Cause → Prop} {before : Place → Place → Prop}
    (h : Reports departs before x) (g : α → β) : Reports departs before (g <$> x) where
  good hnone := by
    rw [Checked.violations_map] at hnone
    obtain ⟨value, rfl⟩ := h.good hnone
    exact ⟨g value, rfl⟩
  exact := by
    rw [Checked.violations_map]
    exact h.exact
  ordered := by
    rw [Checked.violations_map]
    exact h.ordered

theorem BeforeIn.mono {left right : Place} (h : BeforeIn front left right)
    (hsub : front.Sublist ps) : BeforeIn ps left right := by
  rcases h with ⟨first, second, inLeft, inRight, hpair, hrest⟩ |
    ⟨step, part, inLeft, inRight, hmem, hrest⟩
  · exact .inl ⟨first, second, inLeft, inRight, hpair.trans hsub, hrest⟩
  · exact .inr ⟨step, part, inLeft, inRight, hsub.mem hmem, hrest⟩

theorem judgesParts_good (value : α) : JudgesParts [] (.good value) where
  good _ := ⟨value, rfl⟩
  exact place cause := by simp [DepartsIn]
  ordered := .nil

/-- Checks of parts in a row: the reports of the first come first. -/
theorem JudgesParts.append (hf : JudgesParts front f) (hx : JudgesParts back x) :
    JudgesParts (front ++ back) (f <*> x) where
  good hnone := by
    rw [Checked.violations_seq, List.append_eq_nil_iff] at hnone
    obtain ⟨g, rfl⟩ := hf.good hnone.1
    obtain ⟨value, rfl⟩ := hx.good hnone.2
    exact ⟨g value, rfl⟩
  exact place cause := by
    rw [Checked.violations_seq, List.mem_append, hf.exact, hx.exact]
    simp only [DepartsIn, List.mem_append, or_and_right, exists_or]
  ordered := by
    rw [Checked.violations_seq, List.pairwise_append]
    refine ⟨hf.ordered.imp fun h => h.mono (List.sublist_append_left ..),
      hx.ordered.imp fun h => h.mono (List.sublist_append_right ..), ?_⟩
    intro first hfirst second hsecond
    obtain ⟨leftStep, left, inLeft, hleft, hplace, -⟩ := (hf.exact _ _).mp hfirst
    obtain ⟨rightStep, right, inRight, hright, hother, -⟩ := (hx.exact _ _).mp hsecond
    refine .inl ⟨(leftStep, left), (rightStep, right), inLeft, inRight, ?_, hplace, hother⟩
    exact (List.singleton_sublist.mpr hleft).append (List.singleton_sublist.mpr hright)

theorem judgesParts_value (h : Judges inner data x) (step : Step) :
    JudgesParts [(step, .value inner data)] (x.under step) where
  good hnone := by
    rw [Checked.violations_under, List.map_eq_nil_iff] at hnone
    obtain ⟨value, rfl⟩ := h.good hnone
    exact ⟨value, rfl⟩
  exact place cause := by
    rw [Checked.violations_under, List.mem_map]
    constructor
    · rintro ⟨⟨inside, found⟩, hmem, heq⟩
      cases heq
      exact ⟨step, _, inside, List.mem_singleton_self _, rfl, (h.exact _ _).mp hmem⟩
    · rintro ⟨_, _, inside, hmem, rfl, hdeparts⟩
      cases List.mem_singleton.mp hmem
      exact ⟨⟨inside, cause⟩, (h.exact _ _).mpr hdeparts, rfl⟩
  ordered := by
    rw [Checked.violations_under, List.pairwise_map]
    exact h.ordered.imp fun hbefore =>
      .inr ⟨step, _, _, _, List.mem_singleton_self _, rfl, rfl, hbefore⟩

theorem judgesParts_absent (step : Step) :
    JudgesParts [(step, .absent)] (.bad [⟨[step], .missing⟩] : Checked α) where
  good hnone := by cases hnone
  exact place cause := by
    constructor
    · intro hmem
      cases List.mem_singleton.mp hmem
      exact ⟨step, .absent, [], List.mem_singleton_self _, rfl, .absent⟩
    · rintro ⟨_, _, inside, hmem, rfl, hdeparts⟩
      cases List.mem_singleton.mp hmem
      cases hdeparts
      exact List.mem_singleton_self _
  ordered := List.pairwise_singleton _ _

/-- Values in a row are judged one by one. -/
theorem judgesParts_traverse (h : Matches read inner) (steps : List (Step × Json)) :
    JudgesParts (steps.map fun entry => (entry.1, .value inner entry.2))
      (Checked.traverse read steps) := by
  induction steps with
  | nil => exact judgesParts_good []
  | cons first rest ih =>
    have hfirst := (judgesParts_value (h first.2) first.1).map List.cons
    exact JudgesParts.append hfirst ih

/-! ### One value -/

/-- A value departs by its own fault or in one of its parts. -/
theorem departs_value_iff :
    Departs (.value shape data) place cause ↔
      (place = [] ∧ Fault shape data cause) ∨ DepartsIn (parts shape data) place cause := by
  constructor
  · intro h
    cases h with
    | here hfault => exact .inl ⟨rfl, hfault⟩
    | inside hpart hinside => exact .inr ⟨_, _, _, hpart, rfl, hinside⟩
  · rintro (⟨rfl, hfault⟩ | ⟨step, part, inside, hpart, rfl, hinside⟩)
    · exact .here hfault
    · exact .inside hpart hinside

theorem before_value_iff {left right : Place} :
    Before (.value shape data) left right ↔ BeforeIn (parts shape data) left right := by
  constructor
  · intro h
    cases h with
    | apart hpair => exact .inl ⟨_, _, _, _, hpair, rfl, rfl⟩
    | inside hpart hinside => exact .inr ⟨_, _, _, _, hpart, rfl, rfl, hinside⟩
  · rintro (⟨first, second, inLeft, inRight, hpair, rfl, rfl⟩ |
      ⟨step, part, inLeft, inRight, hmem, rfl, rfl, hbefore⟩)
    · exact .apart hpair
    · exact .inside hmem hbefore

/-- A value that is not at fault itself is judged by its parts. -/
theorem Judges.of_parts (hfault : ∀ cause, ¬ Fault shape data cause)
    (h : JudgesParts (parts shape data) x) : Judges shape data x where
  good := h.good
  exact place cause := by
    rw [h.exact, departs_value_iff]
    exact ⟨.inr, fun hdeparts => hdeparts.resolve_left fun hhere => hfault cause hhere.2⟩
  ordered := h.ordered.imp before_value_iff.mpr

theorem Judges.of_good {value : α} (hfault : ∀ cause, ¬ Fault shape data cause)
    (hparts : parts shape data = []) : Judges shape data (.good value) :=
  .of_parts hfault (by rw [hparts]; exact judgesParts_good value)

/-- Of a value at fault nothing else is reported. -/
theorem Judges.of_fault (hfault : ∀ other, Fault shape data other ↔ other = cause)
    (hparts : parts shape data = []) : Judges shape data (.fail cause : Checked α) where
  good hnone := by cases hnone
  exact place other := by
    rw [Checked.violations_fail, List.mem_singleton, Violation.mk.injEq, departs_value_iff,
      hfault, hparts]
    simp [DepartsIn]
  ordered := List.pairwise_singleton _ _

/-! ### The kinds of value -/

theorem matches_text : Matches readText .text := by
  intro data
  cases data with
  | string text =>
    refine .of_good (fun cause hfault => ?_) rfl
    cases hfault with
    | notText h => exact h text rfl
  | _ =>
    refine .of_fault (fun cause => ⟨fun hfault => ?_, fun heq => ?_⟩) rfl
    · cases hfault
      rfl
    · rw [heq]
      exact .notText fun text h => Json.noConfusion h

theorem ofWord?_eq_some_iff {word : String} {location : Location} :
    Location.ofWord? word = some location ↔ word = Location.word location := by
  constructor
  · intro h
    unfold Location.ofWord? at h
    split at h <;> cases h <;> rfl
  · rintro rfl
    cases location <;> rfl

/-- A location is read from its word and from nothing else. -/
theorem matches_location : Matches readLocation .location := by
  have hwrong : ∀ data : Json, (∀ location, data ≠ .string (Location.word location)) →
      Judges .location data (.fail .notLocation : Checked Location) := by
    intro data h
    refine .of_fault (fun cause => ⟨fun hfault => ?_, fun heq => ?_⟩) (by cases data <;> rfl)
    · cases hfault
      rfl
    · rw [heq]
      exact .notLocation h
  intro data
  cases data with
  | string word =>
    rw [readLocation]
    split
    · rename_i location hword
      refine .of_good (fun cause hfault => ?_) rfl
      cases hfault with
      | notLocation h => exact h location (congrArg _ (ofWord?_eq_some_iff.mp hword))
    · rename_i hnone
      refine hwrong _ fun location heq => ?_
      rw [ofWord?_eq_some_iff.mpr (Json.string.inj heq)] at hnone
      cases hnone
  | _ => exact hwrong _ fun location h => Json.noConfusion h

theorem Judges.of_flag {value : Bool} (h : IsFlag data) : Judges .flag data (.good value) := by
  refine .of_good (fun cause hfault => ?_) (by cases data <;> rfl)
  cases hfault with
  | notFlag hflag => exact hflag h
  | unreadableFlag hflag => exact hflag h

theorem Judges.of_illegible (h : ¬ IsFlag data) (hlegible : ¬ Legible data) :
    Judges .flag data (.fail .notFlag : Checked Bool) := by
  refine .of_fault (fun cause => ⟨fun hfault => ?_, fun heq => ?_⟩) (by cases data <;> rfl)
  · cases hfault with
    | notFlag => rfl
    | unreadableFlag _ hother => exact absurd hother hlegible
  · rw [heq]
    exact .notFlag h hlegible

theorem Judges.of_legible (h : ¬ IsFlag data) (hlegible : Legible data) :
    Judges .flag data (.fail .unreadableFlag : Checked Bool) := by
  refine .of_fault (fun cause => ⟨fun hfault => ?_, fun heq => ?_⟩) (by cases data <;> rfl)
  · cases hfault with
    | notFlag _ hother => exact absurd hlegible hother
    | unreadableFlag => rfl
  · rw [heq]
    exact .unreadableFlag h hlegible

/-- A number is a flag or not as the integer is that it stands for. -/
theorem judges_flagOfInt {n : Int} (hflag : IsFlag data ↔ n = 0 ∨ n = 1)
    (hlegible : Legible data ↔ -wordLimit ≤ n ∧ n < wordLimit) :
    Judges .flag data (flagOfInt n) := by
  rw [flagOfInt]
  split
  · rename_i hzero
    exact .of_flag (hflag.mpr (.inl hzero))
  · rename_i hzero
    split
    · rename_i hone
      exact .of_flag (hflag.mpr (.inr hone))
    · rename_i hone
      have hnot : ¬ IsFlag data := fun h => (hflag.mp h).elim hzero hone
      split
      · rename_i hword
        exact .of_legible hnot (hlegible.mpr hword)
      · rename_i hword
        exact .of_illegible hnot fun h => hword (hlegible.mp h)

/-- The words that are read as a flag are those of the list. -/
theorem flagWord?_isSome_iff (word : String) : (flagWord? word).isSome ↔ word ∈ flagWords := by
  have hwords : word ∈ flagWords ↔ word ∈ ["0", "off", "f", "false", "n", "no"] ∨
      word ∈ ["1", "on", "t", "true", "y", "yes"] := by
    rw [← List.mem_append]
    rfl
  rw [hwords, flagWord?]
  split
  · rename_i hno
    simp only [Option.isSome_some, hno, true_or]
  · rename_i hno
    split
    · rename_i hyes
      simp only [Option.isSome_some, hyes, or_true]
    · rename_i hyes
      simp only [Option.isSome_none, hno, hyes, or_false, Bool.false_eq_true]

/-- A text is a flag in whatever letters its word is spelled. -/
theorem isFlag_string_iff (text : String) :
    IsFlag (.string text) ↔
      (flagWord? (String.ofList (text.toList.map Char.toLower))).isSome := by
  rw [flagWord?_isSome_iff]
  constructor
  · rintro ⟨word, hmem, heq⟩
    rwa [heq, String.ofList_toList]
  · intro hmem
    exact ⟨_, hmem, String.toList_ofList.symm⟩

theorem matches_flag : Matches readFlag .flag := by
  intro data
  cases data with
  | bool value => exact .of_flag trivial
  | int n => exact judges_flagOfInt Iff.rfl Iff.rfl
  | float x =>
    rw [readFlag]
    cases hint : x.toInt? with
    | none =>
      refine .of_illegible (fun h => ?_) fun ⟨n, h, _⟩ => ?_
      · rcases h with h | h <;> rw [hint] at h <;> cases h
      · rw [hint] at h
        cases h
    | some n =>
      have hflag : IsFlag (.float x) ↔ n = 0 ∨ n = 1 := by
        simp only [IsFlag, hint, Option.some.injEq]
      have hlegible : Legible (.float x) ↔ -wordLimit < n ∧ n < wordLimit := by
        simp only [Legible, hint, Option.some.injEq, exists_eq_left']
      dsimp only
      split
      · rename_i hlow
        refine judges_flagOfInt hflag (hlegible.trans ?_)
        exact and_congr_left fun _ => ⟨fun _ => Int.le_of_lt hlow, fun _ => hlow⟩
      · rename_i hlow
        refine .of_illegible (fun h => ?_) fun h => hlow (hlegible.mp h).1
        have hlimit : -wordLimit < 0 := by decide
        rcases hflag.mp h with rfl | rfl <;> omega
  | string text =>
    have hflag := isFlag_string_iff text
    rw [readFlag]
    cases hword : flagWord? (String.ofList (text.toList.map Char.toLower)) with
    | some value => exact .of_flag (hflag.mpr (by rw [hword]; rfl))
    | none =>
      refine .of_legible (fun h => ?_) trivial
      have hsome := hflag.mp h
      rw [hword] at hsome
      cases hsome
  | _ => exact .of_illegible id id

/-- A reader that allows null judges any other value as the reader that it is made of. -/
theorem Matches.nullable (h : Matches read inner) :
    Matches (nullable read) (.nullable inner) := by
  have hother : ∀ data, data ≠ .null → Judges (.nullable inner) data (some <$> read data) := by
    intro data hnull
    have hparts : parts (.nullable inner) data = parts inner data := by
      cases data with
      | null => exact absurd rfl hnull
      | _ => rfl
    have hjudged := (h data).map some
    refine ⟨hjudged.good, fun place cause => ?_, hjudged.ordered.imp fun hbefore => ?_⟩
    · rw [hjudged.exact, departs_value_iff, departs_value_iff, hparts]
      refine or_congr_left (and_congr_right fun _ => ⟨fun hfault => .nullable hnull hfault, ?_⟩)
      intro hfault
      cases hfault with
      | nullable _ hinner => exact hinner
    · rw [before_value_iff, hparts]
      exact before_value_iff.mp hbefore
  intro data
  cases data with
  | null =>
    refine .of_good (fun cause hfault => ?_) rfl
    cases hfault with
    | nullable hnull => exact hnull rfl
  | _ => exact hother _ fun heq => Json.noConfusion heq

/-- A list is judged item by item. -/
theorem Matches.list (h : Matches read inner) : Matches (readList read) (.list inner) := by
  intro data
  cases data with
  | list items =>
    refine .of_parts (fun cause hfault => ?_) (judgesParts_traverse h (indexed 0 items))
    cases hfault with
    | notList hlist => exact hlist items rfl
  | _ =>
    refine .of_fault (fun cause => ⟨fun hfault => ?_, fun heq => ?_⟩) rfl
    · cases hfault
      rfl
    · rw [heq]
      exact .notList fun items h => Json.noConfusion h

/-- A mapping is judged entry by entry. -/
theorem Matches.mapping (h : Matches read inner) :
    Matches (readMapping read) (.mapping inner) := by
  intro data
  cases data with
  | object fields =>
    have hparts := judgesParts_traverse h (fields.map fun field => (.key field.1, field.2))
    rw [List.map_map] at hparts
    refine .of_parts (fun cause hfault => ?_) (hparts.map _)
    cases hfault with
    | notMapping hmapping => exact hmapping fields rfl
  | _ =>
    refine .of_fault (fun cause => ⟨fun hfault => ?_, fun heq => ?_⟩) rfl
    · cases hfault
      rfl
    · rw [heq]
      exact .notMapping fun fields h => Json.noConfusion h

/-! ### The records -/

/-- A field that may be left out is judged where it is there. -/
theorem judgesParts_optional {wire plain : String} {absent : α} (h : Matches read inner)
    (fields : Fields) :
    JudgesParts (fieldParts fields (.optional wire plain inner))
      (optionalField fields wire plain absent read) := by
  rw [fieldParts, optionalField]
  dsimp only [FieldRule.optional]
  cases field? fields wire plain with
  | none => exact judgesParts_good absent
  | some found => exact judgesParts_value (h found.2) (.key found.1)

/-- A field that is needed is judged where it is there, and reported as missing elsewhere. -/
theorem judgesParts_needed {name : String} (h : Matches read inner) (fields : Fields) :
    JudgesParts (fieldParts fields (.needed name inner)) (requiredField fields name read) := by
  rw [fieldParts, requiredField]
  dsimp only [FieldRule.needed]
  cases field? fields name name with
  | none => exact judgesParts_absent (.key name)
  | some found => exact judgesParts_value (h found.2) (.key found.1)

abbrev JudgesFields (fields : Fields) (some : List FieldRule) (x : Checked α) : Prop :=
  JudgesParts (some.flatMap (fieldParts fields)) x

theorem JudgesFields.first (h : JudgesParts (fieldParts fields rule) x) (make : α → β) :
    JudgesFields fields [rule] (make <$> x) := by
  rw [JudgesFields, List.flatMap_singleton]
  exact h.map make

/-- One more field is judged behind those that were judged before it. -/
theorem JudgesFields.next {before : List FieldRule} (hf : JudgesFields fields before f)
    (hx : JudgesParts (fieldParts fields rule) x) :
    JudgesFields fields (before ++ [rule]) (f <*> x) := by
  rw [JudgesFields, List.flatMap_append, List.flatMap_singleton]
  exact JudgesParts.append hf hx

/-- A record is judged by its fields in their order. -/
theorem JudgesFields.judges (h : JudgesFields fields (rules kind above) x)
    (hdepth : ¬ TooDeep kind above) : Judges (.record kind above) (.object fields) x := by
  refine .of_parts (fun cause hfault => ?_) (by rw [parts, if_neg hdepth]; exact h)
  cases hfault with
  | notRecord _ hobject => exact hobject fields rfl
  | tooDeep htoo => exact hdepth htoo

theorem judges_notRecord (hdepth : ¬ TooDeep kind above) (h : ∀ fields, data ≠ .object fields) :
    Judges (.record kind above) data (.fail (.notRecord kind) : Checked α) := by
  have hparts : parts (.record kind above) data = [] := by
    cases data with
    | object fields => exact absurd rfl (h fields)
    | _ => rfl
  refine .of_fault (fun cause => ⟨fun hfault => ?_, fun heq => ?_⟩) hparts
  · cases hfault with
    | notRecord => rfl
    | tooDeep htoo => exact absurd htoo hdepth
  · rw [heq]
    exact .notRecord hdepth h

/-- A chain of items that is too long is not looked into. -/
theorem judges_tooDeep (hdepth : TooDeep kind above) (data : Json) :
    Judges (.record kind above) data (.fail .tooDeep : Checked α) := by
  have hparts : parts (.record kind above) data = [] := by
    cases data with
    | object fields => rw [parts, if_pos hdepth]
    | _ => rfl
  refine .of_fault (fun cause => ⟨fun hfault => ?_, fun heq => ?_⟩) hparts
  · cases hfault with
    | notRecord hnot => exact absurd hdepth hnot
    | tooDeep => rfl
  · rw [heq]
    exact .tooDeep hdepth

theorem matches_text? : Matches (nullable readText) (.nullable .text) := matches_text.nullable

theorem matches_texts : Matches (readList readText) .texts := matches_text.list

/-- Below as many properties as its allowance leaves, a chain may go on. -/
theorem matches_property {allowance above : Nat} (h : above + allowance = chainLimit) :
    Matches (readProperty allowance) (.record .property above) := by
  induction allowance generalizing above with
  | zero => exact judges_tooDeep ⟨rfl, by omega⟩
  | succ allowance ih =>
    have hdepth : ¬ TooDeep .property above := fun htoo => by have := htoo.2; omega
    have hnext : above + 1 + allowance = chainLimit := by omega
    have hitems := (ih hnext).nullable
    intro data
    cases data with
    | object fields =>
      have hfields : JudgesFields fields (rules .property above)
          (readProperty (allowance + 1) (.object fields)) :=
        JudgesFields.first (judgesParts_optional matches_text? fields) _
          |>.next (judgesParts_optional matches_text? fields)
          |>.next (judgesParts_optional hitems fields)
          |>.next (judgesParts_optional matches_text? fields)
          |>.next (judgesParts_optional matches_text? fields)
          |>.next (judgesParts_optional matches_texts.nullable fields)
      exact hfields.judges hdepth
    | _ => exact judges_notRecord hdepth fun _ heq => Json.noConfusion heq

theorem matches_model : Matches readModel (.record .model 0) := by
  have hdepth : ¬ TooDeep .model 0 := fun htoo => RecordKind.noConfusion htoo.1
  have hchain : 0 + chainLimit = chainLimit := Nat.zero_add _
  intro data
  cases data with
  | object fields =>
    have hfields : JudgesFields fields (rules .model 0) (readModel (.object fields)) :=
      JudgesFields.first (judgesParts_optional matches_text? fields) _
        |>.next (judgesParts_optional matches_text? fields)
        |>.next (judgesParts_optional matches_texts fields)
        |>.next (judgesParts_optional (matches_property hchain).mapping fields)
    exact hfields.judges hdepth
  | _ => exact judges_notRecord hdepth fun _ heq => Json.noConfusion heq

theorem matches_parameter : Matches readParameter (.record .parameter 0) := by
  have hdepth : ¬ TooDeep .parameter 0 := fun htoo => RecordKind.noConfusion htoo.1
  intro data
  cases data with
  | object fields =>
    have hfields : JudgesFields fields (rules .parameter 0) (readParameter (.object fields)) :=
      JudgesFields.first (judgesParts_needed matches_text fields) _
        |>.next (judgesParts_optional matches_location.nullable fields)
        |>.next (judgesParts_optional matches_flag fields)
        |>.next (judgesParts_optional matches_texts.nullable fields)
        |>.next (judgesParts_optional matches_text? fields)
        |>.next (judgesParts_optional matches_text? fields)
        |>.next (judgesParts_optional matches_text? fields)
    exact hfields.judges hdepth
  | _ => exact judges_notRecord hdepth fun _ heq => Json.noConfusion heq

theorem matches_operation : Matches readOperation (.record .operation 0) := by
  have hdepth : ¬ TooDeep .operation 0 := fun htoo => RecordKind.noConfusion htoo.1
  have hchain : 0 + chainLimit = chainLimit := Nat.zero_add _
  intro data
  cases data with
  | object fields =>
    have hfields : JudgesFields fields (rules .operation 0) (readOperation (.object fields)) :=
      JudgesFields.first (judgesParts_needed matches_text fields) _
        |>.next (judgesParts_needed matches_text fields)
        |>.next (judgesParts_optional matches_text? fields)
        |>.next (judgesParts_optional matches_text? fields)
        |>.next (judgesParts_optional matches_text? fields)
        |>.next (judgesParts_optional (matches_property hchain).nullable fields)
        |>.next (judgesParts_optional matches_parameter.list fields)
    exact hfields.judges hdepth
  | _ => exact judges_notRecord hdepth fun _ heq => Json.noConfusion heq

theorem matches_api : Matches readApi (.record .api 0) := by
  have hdepth : ¬ TooDeep .api 0 := fun htoo => RecordKind.noConfusion htoo.1
  intro data
  cases data with
  | object fields =>
    have hfields : JudgesFields fields (rules .api 0) (readApi (.object fields)) :=
      JudgesFields.first (judgesParts_needed matches_text fields) _
        |>.next (judgesParts_optional matches_text? fields)
        |>.next (judgesParts_optional matches_operation.list fields)
    exact hfields.judges hdepth
  | _ => exact judges_notRecord hdepth fun _ heq => Json.noConfusion heq

theorem matches_resource : Matches readResource (.record .resource 0) := by
  have hdepth : ¬ TooDeep .resource 0 := fun htoo => RecordKind.noConfusion htoo.1
  intro data
  cases data with
  | object fields =>
    have hfields : JudgesFields fields (rules .resource 0) (readResource (.object fields)) :=
      JudgesFields.first (judgesParts_optional matches_text? fields) _
        |>.next (judgesParts_optional matches_text? fields)
        |>.next (judgesParts_optional matches_text fields)
        |>.next (judgesParts_optional matches_text? fields)
        |>.next (judgesParts_optional matches_text? fields)
        |>.next (judgesParts_optional matches_model.mapping fields)
        |>.next (judgesParts_optional matches_api.list fields)
    exact hfields.judges hdepth
  | _ => exact judges_notRecord hdepth fun _ heq => Json.noConfusion heq

theorem matches_listingEntry : Matches readListingEntry (.record .listingEntry 0) := by
  have hdepth : ¬ TooDeep .listingEntry 0 := fun htoo => RecordKind.noConfusion htoo.1
  intro data
  cases data with
  | object fields =>
    have hfields :
        JudgesFields fields (rules .listingEntry 0) (readListingEntry (.object fields)) :=
      JudgesFields.first (judgesParts_needed matches_text fields) _
        |>.next (judgesParts_optional matches_text? fields)
    exact hfields.judges hdepth
  | _ => exact judges_notRecord hdepth fun _ heq => Json.noConfusion heq

theorem matches_listing : Matches readListing (.record .listing 0) := by
  have hdepth : ¬ TooDeep .listing 0 := fun htoo => RecordKind.noConfusion htoo.1
  intro data
  cases data with
  | object fields =>
    have hfields : JudgesFields fields (rules .listing 0) (readListing (.object fields)) :=
      JudgesFields.first (judgesParts_optional matches_text? fields) _
        |>.next (judgesParts_optional matches_text? fields)
        |>.next (judgesParts_optional matches_text? fields)
        |>.next (judgesParts_needed matches_listingEntry.list fields)
    exact hfields.judges hdepth
  | _ => exact judges_notRecord hdepth fun _ heq => Json.noConfusion heq

/-! ### What is said of a document -/

/-- The departures of a document from a kind of record, each once, in the order of their places.
Every place leads to a value or to a key that is missing there. -/
structure Lists (kind : RecordKind) (data : Json) (found : List Violation) : Prop where
  exact : ∀ place cause, ⟨place, cause⟩ ∈ found ↔
    Departs (.value (.record kind 0) data) place cause
  ordered : found.Pairwise fun first second =>
    Before (.value (.record kind 0) data) first.place second.place
  distinct : (found.map Violation.place).Nodup
  leads : ∀ violation ∈ found, Leads data violation.place

/-- A document at a URL gives a record if nothing departs from its kind, and a failure that lists
all departures otherwise. -/
structure Decides (kind : RecordKind) (url : String) (data : Json)
    (outcome : Except Failure α) : Prop where
  accepts_iff : (∃ record, outcome = .ok record) ↔
    ∀ place cause, ¬ Departs (.value (.record kind 0) data) place cause
  rejects : ∀ failure, outcome = .error failure → ∃ found, Lists kind data found ∧
    failure = .document url (.shape found) ∧
    failure.message = url ++ ": " ++ String.intercalate "; " (found.map fun violation =>
      placeText violation.place ++ ": " ++ violation.cause.message)

/-- The violations are exactly the departures, in order and once each. -/
theorem Judges.lists (h : Judges (.record kind 0) data x) (hdata : DistinctKeys.Distinct data) :
    Lists kind data x.violations where
  exact := h.exact
  ordered := h.ordered
  distinct := List.pairwise_map.mpr (h.ordered.imp fun hbefore => hbefore.ne hdata)
  leads _ hmem := Departs.leads ((h.exact _ _).mp hmem) hdata

/-- A reader accepts a document that does not depart, and reports every departure of any other. -/
theorem Judges.decides (h : Judges (.record kind 0) data x)
    (hdata : DistinctKeys.Distinct data) (url : String) :
    Decides kind url data (Fetch.readRecord url x) where
  accepts_iff := by
    constructor
    · rintro ⟨record, hrecord⟩ place cause hdeparts
      cases x with
      | good value => cases (h.exact place cause).mpr hdeparts
      | bad found => cases hrecord
    · intro hnone
      have hempty : x.violations = [] :=
        List.eq_nil_iff_forall_not_mem.mpr fun found hmem => hnone _ _ ((h.exact _ _).mp hmem)
      obtain ⟨value, rfl⟩ := h.good hempty
      exact ⟨value, rfl⟩
  rejects failure hfailure := by
    cases x with
    | good value => cases hfailure
    | bad found =>
      cases hfailure
      exact ⟨found, h.lists hdata, rfl, rfl⟩

/-- The readers of resources and of listings accept exactly the documents of their grammar. Of any
other document they report every departure once, in the order of the places. The places differ as
paths; their texts may still agree, since a key may hold a point. -/
theorem readers_report_departures (url : String) (data : Json)
    (hdata : DistinctKeys.Distinct data) :
    Decides .resource url data (Fetch.readRecord url (readResource data)) ∧
    Decides .listing url data (Fetch.readRecord url (readListing data)) :=
  ⟨(matches_resource data).decides hdata url, (matches_listing data).decides hdata url⟩

/-- No document that was read from bytes has a key twice, so all of them are reported on like
that. -/
theorem decides_of_ofBytes {bytes : ByteArray} (h : Json.ofBytes bytes = .ok data)
    (url : String) : Decides .resource url data (Fetch.readRecord url (readResource data)) ∧
    Decides .listing url data (Fetch.readRecord url (readListing data)) :=
  have hdata := DistinctKeys.distinct_of_ofBytes h
  ⟨(matches_resource data).decides hdata url, (matches_listing data).decides hdata url⟩

/-- A resource with a fault in each of its branches. -/
def faultyDocument : Json :=
  .object [
    ("apis", .list [.object [("operations", .list [.object [
      ("nickname", .string "find"), ("method", .int 1), ("parameters", .list [.object [
        ("required", .string "maybe"), ("paramType", .string "cookie")]])]])]]),
    ("models", .object [("Pet", .object [("properties", .object [("tag", .int 5)])])]),
    ("basePath", .null)]

theorem distinct_faultyDocument : DistinctKeys.Distinct faultyDocument := by
  simp [faultyDocument, DistinctKeys.Distinct.string, DistinctKeys.Distinct.int,
    DistinctKeys.Distinct.null]

theorem faulty_document_reported :
    Decides .resource "http://a" faultyDocument
      (Fetch.readRecord "http://a" (readResource faultyDocument)) ∧
    (readResource faultyDocument).violations = [
      ⟨[.key "basePath"], .notText⟩,
      ⟨[.key "models", .key "Pet", .key "properties", .key "tag"], .notRecord .property⟩,
      ⟨[.key "apis", .index 0, .key "path"], .missing⟩,
      ⟨[.key "apis", .index 0, .key "operations", .index 0, .key "method"], .notText⟩,
      ⟨[.key "apis", .index 0, .key "operations", .index 0, .key "parameters", .index 0,
        .key "name"], .missing⟩,
      ⟨[.key "apis", .index 0, .key "operations", .index 0, .key "parameters", .index 0,
        .key "paramType"], .notLocation⟩,
      ⟨[.key "apis", .index 0, .key "operations", .index 0, .key "parameters", .index 0,
        .key "required"], .unreadableFlag⟩] :=
  ⟨(readers_report_departures "http://a" faultyDocument distinct_faultyDocument).1, by rfl⟩

end ApiClientGen.RecordFaults
