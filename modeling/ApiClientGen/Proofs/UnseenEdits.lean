import ApiClientGen.Fetch
import ApiClientGen.Proofs.RecordGrammar
import Mathlib.Data.List.Pairwise
import Mathlib.Logic.Relation

/-!
Edits of a document that its reader does not see. The fields of a record are looked up by their
names, so that their order is of no account, nor is what stands under other keys, nor what stands
under the plain name of a field that is there under its name on the wire. The same holds of the
records further inside. The order of a mapping is kept by its reader, and no edit touches it.

An edit is made at one place; any number of them, in either direction, makes two documents alike.
What a reader finds of each field is the same in both, or differs by an edit further inside, and
so the readers agree, along the shapes.
-/
namespace ApiClientGen.UnseenEdits

open RecordGrammar Schema

/-- A key that is no name of a field. -/
def Foreign (kind : RecordKind) (above : Nat) (key : String) : Prop :=
  ∀ rule ∈ rules kind above, key ≠ rule.wire ∧ key ≠ rule.plain

/-- An edit at one place of a value that has to be of a shape: another order of the fields of a
record, or one field more, under a key that is no name or under the plain name of a field that is
there under its name on the wire. -/
inductive Edit : Shape → Json → Json → Prop
  | reorder {kind : RecordKind} {above : Nat} {fields others : Fields}
    (hkeys : (fields.map Prod.fst).Nodup) (h : fields.Perm others) :
    Edit (.record kind above) (.object fields) (.object others)
  | foreign {kind : RecordKind} {above : Nat} {front back : Fields} {key : String} {value : Json}
    (h : Foreign kind above key) :
    Edit (.record kind above) (.object (front ++ back)) (.object (front ++ (key, value) :: back))
  | shadowed {kind : RecordKind} {above : Nat} {front back : Fields} {rule : FieldRule}
    {value : Json} (hrule : rule ∈ rules kind above) (hnames : rule.plain ≠ rule.wire)
    (hwire : rule.wire ∈ (front ++ back).map Prod.fst) :
    Edit (.record kind above) (.object (front ++ back))
      (.object (front ++ (rule.plain, value) :: back))
  | field {kind : RecordKind} {above : Nat} {front back : Fields} {rule : FieldRule}
    {key : String} {data other : Json} (hrule : rule ∈ rules kind above)
    (hkey : key = rule.wire ∨ key = rule.plain) (h : Edit rule.shape data other) :
    Edit (.record kind above) (.object (front ++ (key, data) :: back))
      (.object (front ++ (key, other) :: back))
  | nullable {inner : Shape} {data other : Json} (h : Edit inner data other) :
    Edit (.nullable inner) data other
  | item {inner : Shape} {front back : List Json} {data other : Json}
    (h : Edit inner data other) :
    Edit (.list inner) (.list (front ++ data :: back)) (.list (front ++ other :: back))
  | entry {inner : Shape} {front back : Fields} {key : String} {data other : Json}
    (h : Edit inner data other) :
    Edit (.mapping inner) (.object (front ++ (key, data) :: back))
      (.object (front ++ (key, other) :: back))

variable {α : Type} {shape inner : Shape} {data other value : Json} {kind : RecordKind}
  {above : Nat} {rule : FieldRule} {key wire plain : String} {absent : α}
  {read : Json → Checked α} {fields others front back : Fields}

/-- Documents that differ by edits. -/
abbrev Alike (shape : Shape) : Json → Json → Prop := Relation.EqvGen (Edit shape)

/-- A reader that does not see the edits of what it reads. -/
def Blind (read : Json → Checked α) (shape : Shape) : Prop :=
  ∀ data other, Edit shape data other → read data = read other

/-! ### What is found of a field -/

/-- What is found of a field in two objects: the same, or values under the same key that differ by
an edit. -/
def Agree (fields others : Fields) (rule : FieldRule) : Prop :=
  field? fields rule.wire rule.plain = field? others rule.wire rule.plain ∨
    ∃ key data other, field? fields rule.wire rule.plain = some (key, data) ∧
      field? others rule.wire rule.plain = some (key, other) ∧ Edit rule.shape data other

/-- A field is found by its two keys and nothing else. -/
theorem field?_congr (hwire : Entries.find? wire fields = Entries.find? wire others)
    (hplain : Entries.find? plain fields = Entries.find? plain others) :
    field? fields wire plain = field? others wire plain := by
  rw [field?, field?, hwire, hplain]

theorem find?_insert_of_ne {added : String} (hne : added ≠ key) (value : Json)
    (front back : Fields) :
    Entries.find? key (front ++ (added, value) :: back) = Entries.find? key (front ++ back) := by
  rw [Entries.find?_append, Entries.find?_append, Entries.find?, if_neg hne]

/-- Under any key that is not edited the same is found. -/
theorem find?_edited_of_ne {edited : String} (hne : edited ≠ key) (data other : Json)
    (front back : Fields) :
    Entries.find? key (front ++ (edited, data) :: back) =
      Entries.find? key (front ++ (edited, other) :: back) := by
  rw [find?_insert_of_ne hne, find?_insert_of_ne hne]

/-- Two fields that share a name are the same. -/
theorem eq_of_shared {second : FieldRule} (hrule : rule ∈ rules kind above)
    (hsecond : second ∈ rules kind above) (hkey : key = rule.wire ∨ key = rule.plain)
    (hshared : key = second.wire ∨ key = second.plain) : rule = second := by
  by_contra hne
  have hsymm : Std.Symm Apart := ⟨fun _ _ h => ⟨h.1.symm, h.2.2.1.symm, h.2.1.symm, h.2.2.2.symm⟩⟩
  obtain ⟨hww, hwp, hpw, hpp⟩ := (apart_rules kind above).forall hrule hsecond hne
  rcases hkey with rfl | rfl
  · exact hshared.elim hww hwp
  · exact hshared.elim hpw hpp

/-- A key of no field is met by no rule. -/
theorem agree_of_foreign (h : Foreign kind above key) (hrule : rule ∈ rules kind above) :
    Agree (front ++ back) (front ++ (key, value) :: back) rule := by
  obtain ⟨hwire, hplain⟩ := h rule hrule
  exact .inl (field?_congr (find?_insert_of_ne hwire ..).symm (find?_insert_of_ne hplain ..).symm)

/-- A plain key is not looked up where the other key is there. -/
theorem agree_of_shadowed {hidden : FieldRule} (hhidden : hidden ∈ rules kind above)
    (hnames : hidden.plain ≠ hidden.wire) (hwire : hidden.wire ∈ (front ++ back).map Prod.fst)
    (hrule : rule ∈ rules kind above) :
    Agree (front ++ back) (front ++ (hidden.plain, value) :: back) rule := by
  by_cases hshared : hidden.plain = rule.wire ∨ hidden.plain = rule.plain
  · -- the field itself: it is found under its name on the wire before its plain name counts
    obtain rfl := eq_of_shared hhidden hrule (.inr rfl) hshared
    obtain ⟨found, hfound⟩ :=
      Option.isSome_iff_exists.mp ((Entries.find?_isSome_iff hidden.wire _).mpr hwire)
    refine .inl ?_
    rw [field?, field?, find?_insert_of_ne hnames, hfound]
  · rw [not_or] at hshared
    exact .inl (field?_congr (find?_insert_of_ne hshared.1 ..).symm
      (find?_insert_of_ne hshared.2 ..).symm)

/-- Under the edited key the two values are found, unless a value in front takes their place. -/
theorem find?_edited (name : String) (data other : Json) (front back : Fields) :
    Entries.find? name (front ++ (key, data) :: back) =
        Entries.find? name (front ++ (key, other) :: back) ∨
      Entries.find? name (front ++ (key, data) :: back) = some data ∧
        Entries.find? name (front ++ (key, other) :: back) = some other := by
  by_cases hname : key = name
  · rw [Entries.find?_append, Entries.find?_append, Entries.find?, Entries.find?, if_pos hname,
      if_pos hname]
    cases Entries.find? name front with
    | none => exact .inr ⟨rfl, rfl⟩
    | some found => exact .inl rfl
  · exact .inl (find?_edited_of_ne hname ..)

/-- A rule finds the same beside the edited key, or the edited value for what was there. -/
theorem agree_of_edited_key (h : Edit rule.shape data other) :
    Agree (front ++ (key, data) :: back) (front ++ (key, other) :: back) rule := by
  rcases find?_edited rule.wire data other front back with hwire | ⟨hdata, hother⟩
  · rcases find?_edited rule.plain data other front back with hplain | ⟨hdata, hother⟩
    · exact .inl (field?_congr hwire hplain)
    · rw [Agree, field?, field?, hwire, hdata, hother]
      cases Entries.find? rule.wire (front ++ (key, other) :: back) with
      | none => exact .inr ⟨rule.plain, data, other, rfl, rfl, h⟩
      | some found => exact .inl rfl
  · rw [Agree, field?, field?, hdata, hother]
    exact .inr ⟨rule.wire, data, other, rfl, rfl, h⟩

/-- No two rules share a key, so an edited field is seen by its own rule only. -/
theorem agree_of_field {edited : FieldRule} (hedited : edited ∈ rules kind above)
    (hkey : key = edited.wire ∨ key = edited.plain) (h : Edit edited.shape data other)
    (hrule : rule ∈ rules kind above) :
    Agree (front ++ (key, data) :: back) (front ++ (key, other) :: back) rule := by
  by_cases hshared : key = rule.wire ∨ key = rule.plain
  · obtain rfl := eq_of_shared hedited hrule hkey hshared
    exact agree_of_edited_key h
  · rw [not_or] at hshared
    exact .inl (field?_congr (find?_edited_of_ne hshared.1 ..) (find?_edited_of_ne hshared.2 ..))

/-- After an edit of a record, what is found of its fields agrees. -/
theorem agree_of_edit (h : Edit (.record kind above) (.object fields) (.object others))
    (hrule : rule ∈ rules kind above) : Agree fields others rule := by
  cases h with
  | reorder hkeys hperm =>
    exact .inl (field?_congr (Entries.find?_perm hkeys hperm _)
      (Entries.find?_perm hkeys hperm _))
  | foreign hforeign => exact agree_of_foreign hforeign hrule
  | shadowed hhidden hnames hwire => exact agree_of_shadowed hhidden hnames hwire hrule
  | field hedited hkey hinside => exact agree_of_field hedited hkey hinside hrule

/-! ### Readers of values -/

theorem blind_text : Blind readText .text := fun _ _ h => by cases h

theorem blind_location : Blind readLocation .location := fun _ _ h => by cases h

theorem blind_flag : Blind readFlag .flag := fun _ _ h => by cases h

/-- Only objects and lists are edited. -/
theorem ne_null_of_edit (h : Edit shape data other) : data ≠ .null ∧ other ≠ .null := by
  induction h with
  | nullable _ ih => exact ih
  | _ => exact ⟨fun heq => Json.noConfusion heq, fun heq => Json.noConfusion heq⟩

theorem nullable_of_ne_null (h : data ≠ .null) : nullable read data = some <$> read data := by
  cases data with
  | null => exact absurd rfl h
  | _ => rfl

theorem Blind.nullable (h : Blind read inner) : Blind (nullable read) (.nullable inner) := by
  intro data other hedit
  cases hedit with
  | nullable hinside =>
    obtain ⟨hdata, hother⟩ := ne_null_of_edit hinside
    rw [nullable_of_ne_null hdata, nullable_of_ne_null hother, h data other hinside]

/-- Of the values in a row one may be another that is read as the same. -/
theorem traverse_congr (h : read data = read other) (front back : List (Step × Json))
    (step : Step) : Checked.traverse read (front ++ (step, data) :: back) =
      Checked.traverse read (front ++ (step, other) :: back) := by
  induction front with
  | nil => rw [List.nil_append, List.nil_append, Checked.traverse, Checked.traverse, h]
  | cons entry rest ih =>
    rw [List.cons_append, List.cons_append, Checked.traverse, Checked.traverse, ih]

theorem indexed_append {β : Type} (start : Nat) (front back : List β) :
    indexed start (front ++ back) =
      indexed start front ++ indexed (start + front.length) back := by
  induction front generalizing start with
  | nil => rfl
  | cons item rest ih =>
    rw [List.cons_append, indexed, ih, indexed, List.cons_append, List.length_cons,
      Nat.add_assoc, Nat.add_comm 1]

/-- A list is blind to what its items are blind to. -/
theorem Blind.list (h : Blind read inner) : Blind (readList read) (.list inner) := by
  intro data other hedit
  cases hedit with
  | item hinside =>
    rw [readList, readList, indexed_append, indexed_append, indexed, indexed]
    exact traverse_congr (h _ _ hinside) _ _ _

theorem Blind.mapping (h : Blind read inner) : Blind (readMapping read) (.mapping inner) := by
  intro data other hedit
  cases hedit with
  | entry hinside =>
    simp only [readMapping, List.map_append, List.map_cons]
    rw [traverse_congr (h _ _ hinside)]

/-! ### Readers of fields -/

/-- A field that may be left out is read the same where the fields agree. -/
theorem Blind.optional (h : Blind read inner)
    (hagree : Agree fields others (.optional wire plain inner)) :
    optionalField fields wire plain absent read =
      optionalField others wire plain absent read := by
  rw [optionalField, optionalField]
  rcases hagree with heq | ⟨key, data, other, hfields, hothers, hedit⟩
  · dsimp only [FieldRule.optional] at heq
    rw [heq]
  · dsimp only [FieldRule.optional] at hfields hothers hedit
    rw [hfields, hothers]
    dsimp only
    rw [h data other hedit]

theorem Blind.needed {name : String} (h : Blind read inner)
    (hagree : Agree fields others (.needed name inner)) :
    requiredField fields name read = requiredField others name read := by
  rw [requiredField, requiredField]
  rcases hagree with heq | ⟨key, data, other, hfields, hothers, hedit⟩
  · dsimp only [FieldRule.needed] at heq
    rw [heq]
  · dsimp only [FieldRule.needed] at hfields hothers hedit
    rw [hfields, hothers]
    dsimp only
    rw [h data other hedit]

theorem exists_objects_of_edit (h : Edit (.record kind above) data other) :
    ∃ fields others, data = .object fields ∧ other = .object others := by
  cases h <;> exact ⟨_, _, rfl, rfl⟩

/-- A reader of a record sees of an object what it finds of the fields. -/
theorem Blind.of_fields
    (h : ∀ fields others, (∀ rule ∈ rules kind above, Agree fields others rule) →
      read (.object fields) = read (.object others)) : Blind read (.record kind above) := by
  intro data other hedit
  obtain ⟨fields, others, rfl, rfl⟩ := exists_objects_of_edit hedit
  exact h fields others fun rule hrule => agree_of_edit hedit hrule

/-! ### The records -/

theorem blind_text? : Blind (nullable readText) (.nullable .text) := blind_text.nullable

theorem blind_texts : Blind (readList readText) .texts := blind_text.list

theorem blind_property (allowance above : Nat) :
    Blind (readProperty allowance) (.record .property above) := by
  induction allowance generalizing above with
  | zero => exact fun _ _ _ => rfl
  | succ allowance ih =>
    refine .of_fields fun fields others hagree => ?_
    simp only [rules, List.forall_mem_cons] at hagree
    obtain ⟨htype, href, hitems, hdescription, hformat, henum, -⟩ := hagree
    rw [readProperty, readProperty, blind_text?.optional htype, blind_text?.optional href,
      (ih (above + 1)).nullable.optional hitems, blind_text?.optional hdescription,
      blind_text?.optional hformat, blind_texts.nullable.optional henum]

theorem blind_model : Blind readModel (.record .model 0) := by
  refine .of_fields fun fields others hagree => ?_
  simp only [rules, List.forall_mem_cons] at hagree
  obtain ⟨hid, hdescription, hrequired, hproperties, -⟩ := hagree
  rw [readModel, readModel, blind_text?.optional hid, blind_text?.optional hdescription,
    blind_texts.optional hrequired, (blind_property chainLimit 0).mapping.optional hproperties]

theorem blind_parameter : Blind readParameter (.record .parameter 0) := by
  refine .of_fields fun fields others hagree => ?_
  simp only [rules, List.forall_mem_cons] at hagree
  obtain ⟨hname, hlocation, hrequired, henum, hdescription, htype, hformat, -⟩ := hagree
  rw [readParameter, readParameter, blind_text.needed hname,
    blind_location.nullable.optional hlocation, blind_flag.optional hrequired,
    blind_texts.nullable.optional henum, blind_text?.optional hdescription,
    blind_text?.optional htype, blind_text?.optional hformat]

theorem blind_operation : Blind readOperation (.record .operation 0) := by
  refine .of_fields fun fields others hagree => ?_
  simp only [rules, List.forall_mem_cons] at hagree
  obtain ⟨hmethod, hnickname, hsummary, hnotes, htype, hitems, hparameters, -⟩ := hagree
  rw [readOperation, readOperation, blind_text.needed hmethod, blind_text.needed hnickname,
    blind_text?.optional hsummary, blind_text?.optional hnotes, blind_text?.optional htype,
    (blind_property chainLimit 0).nullable.optional hitems,
    blind_parameter.list.optional hparameters]

theorem blind_api : Blind readApi (.record .api 0) := by
  refine .of_fields fun fields others hagree => ?_
  simp only [rules, List.forall_mem_cons] at hagree
  obtain ⟨hpath, hdescription, hoperations, -⟩ := hagree
  rw [readApi, readApi, blind_text.needed hpath, blind_text?.optional hdescription,
    blind_operation.list.optional hoperations]

/-- A resource is read without regard to what an edit changes, down to its last property. -/
theorem blind_resource : Blind readResource (.record .resource 0) := by
  refine .of_fields fun fields others hagree => ?_
  simp only [rules, List.forall_mem_cons] at hagree
  obtain ⟨hapi, hswagger, hbase, hpath, hdescription, hmodels, hapis, -⟩ := hagree
  rw [readResource, readResource, blind_text?.optional hapi, blind_text?.optional hswagger,
    blind_text.optional hbase, blind_text?.optional hpath, blind_text?.optional hdescription,
    blind_model.mapping.optional hmodels, blind_api.list.optional hapis]

theorem blind_listingEntry : Blind readListingEntry (.record .listingEntry 0) := by
  refine .of_fields fun fields others hagree => ?_
  simp only [rules, List.forall_mem_cons] at hagree
  obtain ⟨hpath, hdescription, -⟩ := hagree
  rw [readListingEntry, readListingEntry, blind_text.needed hpath,
    blind_text?.optional hdescription]

theorem blind_listing : Blind readListing (.record .listing 0) := by
  refine .of_fields fun fields others hagree => ?_
  simp only [rules, List.forall_mem_cons] at hagree
  obtain ⟨hapi, hswagger, hbase, hapis, -⟩ := hagree
  rw [readListing, readListing, blind_text?.optional hapi, blind_text?.optional hswagger,
    blind_text?.optional hbase, blind_listingEntry.list.needed hapis]

/-- Any number of edits is not seen. -/
theorem Blind.eq_of_alike (h : Blind read shape) (halike : Alike shape data other) :
    read data = read other := by
  induction halike with
  | rel data other hedit => exact h data other hedit
  | refl data => rfl
  | symm data other _ ih => exact ih.symm
  | trans data middle other _ _ first second => exact first.trans second

/-- Documents that differ by edits alone give the same resource, or the same listing; where one of
them is refused the other is refused with the same failure, and so with the same message. -/
theorem alike_documents_give_same_record (url : String) :
    (∀ data other, Alike (.record .resource 0) data other →
      Fetch.readRecord url (readResource data) = Fetch.readRecord url (readResource other)) ∧
    (∀ data other, Alike (.record .listing 0) data other →
      Fetch.readRecord url (readListing data) = Fetch.readRecord url (readListing other)) := by
  constructor
  · intro data other halike
    rw [blind_resource.eq_of_alike halike]
  · intro data other halike
    rw [blind_listing.eq_of_alike halike]

/-- A resource with one property, which stands four records inside. -/
def propertyDocument (property : Fields) : Json :=
  .object [("models", .object [("Pet", .object [("properties", .object [
    ("tag", .object property)])])])]

theorem edit_propertyDocument {property edited : Fields}
    (h : Edit (.record .property 0) (.object property) (.object edited)) :
    Edit (.record .resource 0) (propertyDocument property) (propertyDocument edited) := by
  have hproperties :
      FieldRule.optional "properties" "properties" (.mapping (.record .property 0)) ∈
        rules .model 0 := by simp [rules]
  have hmodels : FieldRule.optional "models" "models" (.mapping (.record .model 0)) ∈
      rules .resource 0 := by simp [rules]
  have hproperty := @Edit.entry _ [] [] "tag" _ _ h
  have hmodel := @Edit.entry _ [] [] "Pet" _ _
    (@Edit.field _ _ [] [] _ _ _ _ hproperties (.inl rfl) hproperty)
  exact @Edit.field _ _ [] [] _ _ _ _ hmodels (.inl rfl) hmodel

def faultyProperty : Fields := [("type", .int 5), ("$ref", .string "Tag")]

def editedProperty : Fields :=
  [("responseMessages", .list [.int 404]), ("ref", .int 7), ("$ref", .string "Tag"),
    ("type", .int 5)]

theorem alike_faultyProperty :
    Alike (.record .resource 0) (propertyDocument faultyProperty)
      (propertyDocument editedProperty) := by
  have href : FieldRule.optional "$ref" "ref" (.nullable .text) ∈ rules .property 0 := by
    simp [rules]
  have hforeign : Foreign .property 0 "responseMessages" := by
    simp [Foreign, rules, FieldRule.optional]
  have hsecond := @Edit.shadowed _ _ faultyProperty [] _ (.int 7) href (by decide) (by decide)
  have hmore := @Edit.foreign _ _ (faultyProperty ++ [("ref", .int 7)]) [] _
    (.list [.int 404]) hforeign
  have hturned := @Edit.reorder .property 0 editedProperty.reverse _ (by decide)
    (List.reverse_perm _)
  exact .trans _ _ _ (.rel _ _ (edit_propertyDocument hsecond))
    (.trans _ _ _ (.rel _ _ (edit_propertyDocument hmore))
      (.rel _ _ (edit_propertyDocument hturned)))

/-- A listing with a further field in front. -/
theorem alike_listing :
    Alike (.record .listing 0) (.object [("apis", .list [])])
      (.object [("info", .null), ("apis", .list [])]) := by
  have hforeign : Foreign .listing 0 "info" := by
    simp [Foreign, rules, FieldRule.optional, FieldRule.needed]
  exact .rel _ _ (@Edit.foreign _ _ [] [("apis", .list [])] _ .null hforeign)

theorem edited_property_reported_alike :
    Alike (.record .resource 0) (propertyDocument faultyProperty)
        (propertyDocument editedProperty) ∧
      Fetch.readRecord "http://a" (readResource (propertyDocument faultyProperty)) =
        Fetch.readRecord "http://a" (readResource (propertyDocument editedProperty)) ∧
      (readResource (propertyDocument editedProperty)).violations =
        [⟨[.key "models", .key "Pet", .key "properties", .key "tag", .key "type"], .notText⟩] ∧
      Fetch.readRecord "http://a" (readListing (.object [("apis", .list [])])) =
        Fetch.readRecord "http://a"
          (readListing (.object [("info", .null), ("apis", .list [])])) :=
  ⟨alike_faultyProperty,
    (alike_documents_give_same_record "http://a").1 _ _ alike_faultyProperty, by rfl,
    (alike_documents_give_same_record "http://a").2 _ _ alike_listing⟩

end ApiClientGen.UnseenEdits
