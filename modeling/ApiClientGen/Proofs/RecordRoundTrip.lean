import ApiClientGen.Schema.Decode
import ApiClientGen.Schema.Encode

/-!
Reading gives back every record that was read before and then written, under either of the names
of its fields. For each kind of value that is one lemma: whatever the reader returned, the
writer's document of it is read as the same. An absent field is written as its default, so the
default has to come back as well. A chain of properties is written as deep as it was read, and
stays within the limit.
-/
namespace ApiClientGen.RecordRoundTrip

open Schema

variable {α : Type} {read : Json → Checked α} {write : α → Json} {fields : Fields}
  {wire plain : String} {absent value : α} {naming : Naming}

/-- What was read and then written is read again as the same. -/
def Undoes (read : Json → Checked α) (write : α → Json) : Prop :=
  ∀ data value, read data = .good value → read (write value) = .good value

theorem undoes_text : Undoes readText .string := fun _ _ _ => rfl

theorem undoes_location : Undoes readLocation (.string ∘ Location.word) := by
  intro data location _
  cases location <;> rfl

theorem undoes_flag : Undoes readFlag .bool := fun _ _ _ => rfl

/-- Null is kept for nothing: a writer that writes it for a value could not be undone. -/
theorem Undoes.nullable (h : Undoes read write) (hnull : ∀ value, write value ≠ .null) :
    Undoes (nullable read) (writeOption write) := by
  intro data value? hread
  have hwritten : ∀ value, Schema.nullable read (write value) = some <$> read (write value) := by
    intro value
    cases hcase : write value with
    | null => exact absurd hcase (hnull value)
    | _ => rfl
  have hmap : ∀ value, some <$> read data = .good (some value) →
      Schema.nullable read (write value) = .good (some value) := by
    intro value hgood
    obtain ⟨found, hfound, heq⟩ := Checked.map_eq_good_iff.mp hgood
    cases heq
    rw [hwritten, h data value hfound, Checked.map_good]
  cases value? with
  | none => rfl
  | some value =>
    cases data with
    | null => cases hread
    | _ => exact hmap value hread

/-- Values that come back one by one come back together, whatever the steps are. -/
theorem traverse_write {values : List α} (h : ∀ value ∈ values, read (write value) = .good value)
    {steps : List Step} (hlength : steps.length = values.length) :
    Checked.traverse read (steps.zip (values.map write)) = .good values := by
  induction values generalizing steps with
  | nil =>
    rw [List.map_nil, List.zip_nil_right]
    rfl
  | cons value rest ih =>
    cases steps with
    | nil => cases hlength
    | cons step steps =>
      have hrest := ih (fun later hmem => h later (List.mem_cons_of_mem _ hmem))
        (Nat.succ_inj.mp hlength)
      rw [List.map_cons, List.zip_cons_cons, Checked.traverse, hrest, h value List.mem_cons_self]
      rfl

theorem exists_of_traverse {steps : List (Step × Json)} {values : List α}
    (h : Checked.traverse read steps = .good values) (hmem : value ∈ values) :
    ∃ data, read data = .good value := by
  induction steps generalizing values with
  | nil =>
    cases h
    cases hmem
  | cons first rest ih =>
    rw [Checked.traverse, Checked.seq_eq_good_iff] at h
    obtain ⟨_, others, hfirst, hrest, rfl⟩ := h
    obtain ⟨found, hfound, rfl⟩ := Checked.map_eq_good_iff.mp hfirst
    rcases List.mem_cons.mp hmem with rfl | hothers
    · exact ⟨first.2, Checked.under_eq_good_iff.mp hfound⟩
    · exact ih hrest hothers

theorem exists_indexed_eq_zip (start : Nat) (items : List α) :
    ∃ steps : List Step, steps.length = items.length ∧ indexed start items = steps.zip items := by
  induction items generalizing start with
  | nil => exact ⟨[], rfl, rfl⟩
  | cons item rest ih =>
    obtain ⟨steps, hlength, heq⟩ := ih (start + 1)
    refine ⟨.index start :: steps, congrArg (· + 1) hlength, ?_⟩
    rw [indexed, heq, List.zip_cons_cons]

theorem Undoes.list (h : Undoes read write) : Undoes (readList read) (writeList write) := by
  intro data values hread
  cases data with
  | list items =>
    have hvalues : ∀ value ∈ values, read (write value) = .good value := by
      intro value hmem
      obtain ⟨found, hfound⟩ := exists_of_traverse hread hmem
      exact h found value hfound
    obtain ⟨steps, hlength, heq⟩ := exists_indexed_eq_zip 0 (values.map write)
    rw [writeList, readList, heq]
    exact traverse_write hvalues (by rw [hlength, List.length_map])
  | _ => cases hread

/-- The entries of a map have distinct keys, so they are read as the map itself, in its order. -/
theorem Undoes.mapping (h : Undoes read write) :
    Undoes (readMapping read) (writeMapping write) := by
  intro data m hread
  cases data with
  | object given =>
    obtain ⟨values, hvalues, rfl⟩ := Checked.map_eq_good_iff.mp hread
    generalize hm : OrderedMap.ofList ((given.map Prod.fst).zip values) = m
    have hback : ∀ value ∈ m.values, read (write value) = .good value := by
      intro value hmem
      obtain ⟨entry, hentry, rfl⟩ := List.mem_map.mp hmem
      have hzip : entry ∈ (given.map Prod.fst).zip values := by
        rw [← hm] at hentry
        exact (OrderedMap.mem_of_mem_putAll hentry).resolve_left List.not_mem_nil
      obtain ⟨found, hfound⟩ := exists_of_traverse hvalues (List.of_mem_zip hzip).2
      exact h found entry.2 hfound
    have hsteps : (m.entries.map fun entry => (entry.1, write entry.2)).map
        (fun field => (Step.key field.1, field.2)) =
          (m.keys.map Step.key).zip (m.values.map write) := by
      rw [OrderedMap.keys, OrderedMap.values, List.map_map, List.map_map, List.map_map,
        List.zip_map', Function.comp_def, Function.comp_def, Function.comp_def]
    have hkeys : ((m.entries.map fun entry => (entry.1, write entry.2)).map Prod.fst).zip
        m.values = m.entries := by
      rw [List.map_map, OrderedMap.values]
      exact (List.zip_of_prod rfl rfl).symm
    rw [writeMapping, readMapping, hsteps, traverse_write hback (by
      rw [OrderedMap.keys, OrderedMap.values, List.length_map, List.length_map, List.length_map]),
      Checked.map_good, hkeys, OrderedMap.ofList_entries]
  | _ => cases hread

/-- A field that was read or left at its default is written as something that is read as the
same. -/
theorem Undoes.optional (h : Undoes read write) (habsent : read (write absent) = .good absent)
    (hread : optionalField fields wire plain absent read = .good value) :
    read (write value) = .good value := by
  rw [optionalField] at hread
  split at hread
  · exact h _ value (Checked.under_eq_good_iff.mp hread)
  · cases hread
    exact habsent

theorem Undoes.required (h : Undoes read write)
    (hread : requiredField fields wire read = .good value) :
    read (write value) = .good value := by
  rw [requiredField] at hread
  split at hread
  · exact h _ value (Checked.under_eq_good_iff.mp hread)
  · cases hread

/-! ### The records -/

theorem undoes_text? : Undoes (nullable readText) writeText? :=
  undoes_text.nullable fun _ h => Json.noConfusion h

theorem undoes_texts? : Undoes (nullable (readList readText)) (writeOption (writeList .string)) :=
  undoes_text.list.nullable fun _ h => Json.noConfusion h

theorem writeProperty_eq (naming : Naming) (property : Property) :
    writeProperty naming property = .object [
      ("type", writeText? property.type),
      (naming.choose "$ref" "ref", writeText? property.ref),
      ("items", writeOption (writeProperty naming) property.items),
      ("description", writeText? property.description),
      ("format", writeText? property.format),
      ("enum", writeOption (writeList .string) property.enum)] := by
  obtain ⟨type, ref, items, description, format, enum⟩ := property
  cases items <;> simp only [writeProperty, writeOption]

theorem writeProperty_ne_null (naming : Naming) (property : Property) :
    writeProperty naming property ≠ .null := by
  rw [writeProperty_eq]
  exact fun h => Json.noConfusion h

/-- A property that was read within an allowance is written within it. -/
theorem undoes_property (naming : Naming) (allowance : Nat) :
    Undoes (readProperty allowance) (writeProperty naming) := by
  induction allowance with
  | zero =>
    intro data property hread
    cases hread
  | succ allowance ih =>
    intro data property hread
    cases data with
    | object fields =>
      have hitems : Undoes (nullable (readProperty allowance))
          (writeOption (writeProperty naming)) := ih.nullable (writeProperty_ne_null naming)
      simp only [readProperty, Checked.seq_eq_good_iff, Checked.map_eq_good_iff] at hread
      obtain ⟨_, enum, ⟨_, format, ⟨_, description, ⟨_, items, ⟨_, ref, ⟨type, htype, rfl⟩, href,
        rfl⟩, hinner, rfl⟩, hdescription, rfl⟩, hformat, rfl⟩, henum, rfl⟩ := hread
      rw [writeProperty_eq]
      cases naming <;>
        simp [readProperty, optionalField, field?, Entries.find?, Naming.choose,
          undoes_text?.optional rfl htype, undoes_text?.optional rfl href,
          hitems.optional rfl hinner, undoes_text?.optional rfl hdescription,
          undoes_text?.optional rfl hformat, undoes_texts?.optional rfl henum]
    | _ => cases hread

theorem undoes_model (naming : Naming) : Undoes readModel (writeModel naming) := by
  intro data model hread
  cases data with
  | object fields =>
    have hproperties := (undoes_property naming chainLimit).mapping
    simp only [readModel, Checked.seq_eq_good_iff, Checked.map_eq_good_iff] at hread
    obtain ⟨_, properties, ⟨_, required, ⟨_, description, ⟨id, hid, rfl⟩, hdescription, rfl⟩,
      hrequired, rfl⟩, hmapping, rfl⟩ := hread
    simp [readModel, writeModel, optionalField, field?, Entries.find?,
      undoes_text?.optional rfl hid, undoes_text?.optional rfl hdescription,
      undoes_text.list.optional rfl hrequired, hproperties.optional rfl hmapping]
  | _ => cases hread

theorem undoes_parameter (naming : Naming) : Undoes readParameter (writeParameter naming) := by
  intro data parameter hread
  cases data with
  | object fields =>
    have hlocations := undoes_location.nullable fun _ h => Json.noConfusion h
    simp only [readParameter, Checked.seq_eq_good_iff, Checked.map_eq_good_iff] at hread
    obtain ⟨_, format, ⟨_, type, ⟨_, description, ⟨_, enum, ⟨_, required, ⟨_, location, ⟨name,
      hname, rfl⟩, hlocation, rfl⟩, hrequired, rfl⟩, henum, rfl⟩, hdescription, rfl⟩, htype, rfl⟩,
      hformat, rfl⟩ := hread
    cases naming <;>
      simp [readParameter, writeParameter, requiredField, optionalField, field?, Entries.find?,
        Naming.choose, undoes_text.required hname, hlocations.optional rfl hlocation,
        undoes_flag.optional rfl hrequired, undoes_texts?.optional rfl henum,
        undoes_text?.optional rfl hdescription, undoes_text?.optional rfl htype,
        undoes_text?.optional rfl hformat]
  | _ => cases hread

theorem undoes_operation (naming : Naming) : Undoes readOperation (writeOperation naming) := by
  intro data operation hread
  cases data with
  | object fields =>
    have hitems := (undoes_property naming chainLimit).nullable (writeProperty_ne_null naming)
    have hparameters := (undoes_parameter naming).list
    simp only [readOperation, Checked.seq_eq_good_iff, Checked.map_eq_good_iff] at hread
    obtain ⟨_, parameters, ⟨_, items, ⟨_, type, ⟨_, notes, ⟨_, summary, ⟨_, nickname, ⟨method,
      hmethod, rfl⟩, hnickname, rfl⟩, hsummary, rfl⟩, hnotes, rfl⟩, htype, rfl⟩, hinner, rfl⟩,
      hlist, rfl⟩ := hread
    simp [readOperation, writeOperation, requiredField, optionalField, field?, Entries.find?,
      undoes_text.required hmethod, undoes_text.required hnickname,
      undoes_text?.optional rfl hsummary, undoes_text?.optional rfl hnotes,
      undoes_text?.optional rfl htype, hitems.optional rfl hinner, hparameters.optional rfl hlist]
  | _ => cases hread

theorem undoes_api (naming : Naming) : Undoes readApi (writeApi naming) := by
  intro data api hread
  cases data with
  | object fields =>
    have hoperations := (undoes_operation naming).list
    simp only [readApi, Checked.seq_eq_good_iff, Checked.map_eq_good_iff] at hread
    obtain ⟨_, operations, ⟨_, description, ⟨path, hpath, rfl⟩, hdescription, rfl⟩, hlist, rfl⟩ :=
      hread
    simp [readApi, writeApi, requiredField, optionalField, field?, Entries.find?,
      undoes_text.required hpath, undoes_text?.optional rfl hdescription,
      hoperations.optional rfl hlist]
  | _ => cases hread

theorem undoes_resource (naming : Naming) : Undoes readResource (writeResource naming) := by
  intro data resource hread
  cases data with
  | object fields =>
    have hmodels := (undoes_model naming).mapping
    have hapis := (undoes_api naming).list
    simp only [readResource, Checked.seq_eq_good_iff, Checked.map_eq_good_iff] at hread
    obtain ⟨_, apis, ⟨_, models, ⟨_, description, ⟨_, resourcePath, ⟨_, basePath, ⟨_,
      swaggerVersion, ⟨apiVersion, hapi, rfl⟩, hswagger, rfl⟩, hbase, rfl⟩, hpath, rfl⟩,
      hdescription, rfl⟩, hmapping, rfl⟩, hlist, rfl⟩ := hread
    cases naming <;>
      simp [readResource, writeResource, optionalField, field?, Entries.find?, Naming.choose,
        undoes_text?.optional rfl hapi, undoes_text?.optional rfl hswagger,
        undoes_text.optional rfl hbase, undoes_text?.optional rfl hpath,
        undoes_text?.optional rfl hdescription, hmodels.optional rfl hmapping,
        hapis.optional rfl hlist]
  | _ => cases hread

theorem undoes_listingEntry : Undoes readListingEntry writeListingEntry := by
  intro data entry hread
  cases data with
  | object fields =>
    simp only [readListingEntry, Checked.seq_eq_good_iff, Checked.map_eq_good_iff] at hread
    obtain ⟨_, description, ⟨path, hpath, rfl⟩, hdescription, rfl⟩ := hread
    simp [readListingEntry, writeListingEntry, requiredField, optionalField, field?,
      Entries.find?, undoes_text.required hpath, undoes_text?.optional rfl hdescription]
  | _ => cases hread

theorem undoes_listing (naming : Naming) : Undoes readListing (writeListing naming) := by
  intro data listing hread
  cases data with
  | object fields =>
    simp only [readListing, Checked.seq_eq_good_iff, Checked.map_eq_good_iff] at hread
    obtain ⟨_, apis, ⟨_, basePath, ⟨_, swaggerVersion, ⟨apiVersion, hapi, rfl⟩, hswagger, rfl⟩,
      hbase, rfl⟩, hlist, rfl⟩ := hread
    cases naming <;>
      simp [readListing, writeListing, requiredField, optionalField, field?, Entries.find?,
        Naming.choose, undoes_text?.optional rfl hapi, undoes_text?.optional rfl hswagger,
        undoes_text?.optional rfl hbase, undoes_listingEntry.list.required hlist]
  | _ => cases hread

/-- A record that was read is written, under either naming of its fields, as a document from which
it is read again. -/
theorem reading_undoes_writing (naming : Naming) :
    (∀ data resource, readResource data = .good resource →
      readResource (writeResource naming resource) = .good resource) ∧
    (∀ data listing, readListing data = .good listing →
      readListing (writeListing naming listing) = .good listing) :=
  ⟨undoes_resource naming, undoes_listing naming⟩

/-- A resource with an array property, a flag given as a word and fields under both of their
names. -/
def petsDocument : Json :=
  .object [
    ("base_path", .string "/v1"),
    ("models", .object [("Pet", .object [("properties", .object [
      ("tags", .object [("type", .string "array"),
        ("items", .object [("ref", .string "Tag")])])])])]),
    ("apis", .list [.object [("path", .string "/pets"), ("operations", .list [.object [
      ("method", .string "GET"), ("nickname", .string "find"), ("parameters", .list [.object [
        ("name", .string "tag"), ("paramType", .string "query"),
        ("required", .string "Yes")]])]])]])]

def petsResource : Resource where
  basePath := "/v1"
  models := OrderedMap.empty.put "Pet" {
    properties := OrderedMap.empty.put "tags" {
      type := some "array"
      items := some { ref := some "Tag" } } }
  apis := [{
    path := "/pets"
    operations := [{
      method := "GET"
      nickname := "find"
      parameters := [{ name := "tag", location := some .query, required := true }] }] }]

theorem pets_read_back :
    readResource petsDocument = .good petsResource ∧
    readResource (writeResource .wire petsResource) = .good petsResource ∧
    readResource (writeResource .plain petsResource) = .good petsResource ∧
    readListing (writeListing .wire { apis := [{ path := "/pets" }] }) =
      .good { apis := [{ path := "/pets" }] } := by
  have hread : readResource petsDocument = .good petsResource := by rfl
  have hlisting : readListing (.object [("apis", .list [.object [("path", .string "/pets")]])]) =
      .good { apis := [{ path := "/pets" }] } := by rfl
  exact ⟨hread, (reading_undoes_writing .wire).1 _ _ hread,
    (reading_undoes_writing .plain).1 _ _ hread, (reading_undoes_writing .wire).2 _ _ hlisting⟩

end ApiClientGen.RecordRoundTrip
