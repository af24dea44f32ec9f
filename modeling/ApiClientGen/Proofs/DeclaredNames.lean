import ApiClientGen.Declaration.ClientClass
import ApiClientGen.Proofs.FinalFiles
import ApiClientGen.Proofs.MergeFold

/-!
Which names of a class file clash although ids and nicknames are distinct. Interfaces of models
bear their ids, so they never clash with each other. Options and methods bear nicknames whose
first character has its capital or its small form, so they clash where nothing is left then of
what two nicknames differ in. Options clash with an interface whose model is called as they are.
-/
namespace ApiClientGen.DeclaredNames

open Declaration Text

/-- Behind its first character the first text has what the form of the second's first character
has beyond that of its own, and then all that the second text has. So for forms of one character
each: both texts have the same behind their first characters, and these have the same form. -/
def FoldsOnto (form : Char → List Char) (first second : String) : Prop :=
  ∃ c d more rest, first.toList = c :: (more ++ rest) ∧ second.toList = d :: rest ∧
    form d = form c ++ more

/-- Two operations have different nicknames that the forms of their first characters make one. -/
def Clash (form : Char → List Char) (operations : List Operation) : Prop :=
  ∃ first ∈ operations, ∃ second ∈ operations, first.nickname ≠ second.nickname ∧
    FoldsOnto form first.nickname second.nickname

/-- Different texts that are the same but for the case of their first letters. -/
def CaseTwins (first second : String) : Prop :=
  ∃ c d rest, first.toList = c :: rest ∧ second.toList = d :: rest ∧ c ≠ d ∧ c.toLower = d.toLower

/-- The id that a model bears if its interface is called as the options of an operation are. -/
def optionsId (operation : Operation) : String :=
  String.ofList (upperFirst operation.nickname.toList) ++ "Options"

/-- Ids and nicknames that are there, not empty and pairwise distinct. -/
structure WellNamed (resource : Resource) : Prop where
  id_some : ∀ model ∈ resource.models.values, ∃ id, model.id = some id ∧ id ≠ ""
  nodup_ids : (resource.models.values.map Model.id).Nodup
  nickname_ne : ∀ operation ∈ resource.operations, operation.nickname ≠ ""
  nodup_nicknames : (resource.operations.map Operation.nickname).Nodup

def declaredNames (file : ClientClass) : List String :=
  match file.surroundings with
  | .inline interfaces options => interfaces.map Interface.name ++ options.map Options.name
  | .imported _ => []

section Forms

variable {form : Char → List Char} {first second : String}

theorem exists_cons_of_ne_empty {text : String} (h : text ≠ "") :
    ∃ c rest, text.toList = c :: rest :=
  List.exists_cons_of_ne_nil fun hnil => h (String.toList_eq_nil_iff.mp hnil)

/-- Two texts become one exactly if one of them folds onto the other. -/
theorem append_form_eq_iff {c d : Char} {rest tail : List Char}
    (hfirst : first.toList = c :: rest) (hsecond : second.toList = d :: tail) :
    form c ++ rest = form d ++ tail ↔
      FoldsOnto form first second ∨ FoldsOnto form second first := by
  rw [List.append_eq_append_iff]
  constructor
  · rintro (⟨more, hform, rfl⟩ | ⟨more, hform, rfl⟩)
    · exact Or.inl ⟨c, d, more, tail, hfirst, hsecond, hform⟩
    · exact Or.inr ⟨d, c, more, rest, hsecond, hfirst, hform⟩
  · rintro (⟨_, _, more, back, hfirst', hsecond', hform⟩ |
      ⟨_, _, more, back, hsecond', hfirst', hform⟩)
    all_goals
      obtain ⟨rfl, rfl⟩ := List.cons.inj (hfirst.symm.trans hfirst')
      obtain ⟨rfl, rfl⟩ := List.cons.inj (hsecond.symm.trans hsecond')
    · exact Or.inl ⟨more, hform, rfl⟩
    · exact Or.inr ⟨more, hform, rfl⟩

/-- A change of first characters makes one of two texts exactly if one of them folds onto the
other. -/
theorem change_eq_iff {change : List Char → List Char}
    (hchange : ∀ c rest, change (c :: rest) = form c ++ rest) (hfirst : first ≠ "")
    (hsecond : second ≠ "") :
    change first.toList = change second.toList ↔
      FoldsOnto form first second ∨ FoldsOnto form second first := by
  obtain ⟨c, rest, hc⟩ := exists_cons_of_ne_empty hfirst
  obtain ⟨d, tail, hd⟩ := exists_cons_of_ne_empty hsecond
  rw [← append_form_eq_iff hc hd, hc, hd, hchange, hchange]

/-- A sharp s has two letters as its capital form, so it also becomes what `s` and `S` become. -/
example : FoldsOnto upperChar "sSum" "ßum" :=
  ⟨'s', 'ß', ['S'], ['u', 'm'], rfl, rfl, by decide⟩

end Forms

section Ascii

/-- Two operations have nicknames that are the same but for the case of their first letters. -/
def TwinNicknames (operations : List Operation) : Prop :=
  ∃ first ∈ operations, ∃ second ∈ operations, CaseTwins first.nickname second.nickname

def BeginsAscii (text : String) : Prop := ∀ c ∈ text.toList.head?, c.toNat < 0x80

theorem ascii_cases {c : Char} (h : c.toNat < 0x80) :
    c.toUpper.toLower = c.toLower ∧ c.toLower.toUpper = c.toUpper := by
  have hcodes : ∀ code < 0x80,
      (Char.ofNat code).toUpper.toLower = (Char.ofNat code).toLower ∧
        (Char.ofNat code).toLower.toUpper = (Char.ofNat code).toUpper := by
    decide +kernel
  have hcases := hcodes c.toNat h
  rwa [Char.ofNat_toNat] at hcases

theorem toUpper_eq_iff {c d : Char} (hc : c.toNat < 0x80) (hd : d.toNat < 0x80) :
    c.toUpper = d.toUpper ↔ c.toLower = d.toLower := by
  constructor
  · intro h
    rw [← (ascii_cases hc).1, h, (ascii_cases hd).1]
  · intro h
    rw [← (ascii_cases hc).2, h, (ascii_cases hd).2]

/-- Where first characters have forms of one character, these decide. -/
theorem foldsOnto_iff_of_single {form : Char → List Char} {change : Char → Char}
    (hform : ∀ c, c.toNat < 0x80 → form c = [change c])
    (hchange : ∀ c d, c.toNat < 0x80 → d.toNat < 0x80 →
      (change c = change d ↔ c.toLower = d.toLower))
    {first second : String} (hfirst : BeginsAscii first) (hsecond : BeginsAscii second)
    (hne : first ≠ second) :
    FoldsOnto form first second ↔ CaseTwins first second := by
  constructor
  · rintro ⟨c, d, more, rest, hc, hd, hforms⟩
    have hcode : c.toNat < 0x80 := hfirst c (by rw [hc]; rfl)
    have hcode' : d.toNat < 0x80 := hsecond d (by rw [hd]; rfl)
    rw [hform c hcode, hform d hcode', List.singleton_append, List.cons.injEq] at hforms
    obtain ⟨hsame, rfl⟩ := hforms
    refine ⟨c, d, rest, hc, hd, ?_, (hchange c d hcode hcode').mp hsame.symm⟩
    rintro rfl
    exact hne (String.toList_injective (hc.trans hd.symm))
  · rintro ⟨c, d, rest, hc, hd, -, hlower⟩
    have hcode : c.toNat < 0x80 := hfirst c (by rw [hc]; rfl)
    have hcode' : d.toNat < 0x80 := hsecond d (by rw [hd]; rfl)
    refine ⟨c, d, [], rest, hc, hd, ?_⟩
    rw [hform c hcode, hform d hcode', List.append_nil, (hchange c d hcode hcode').mpr hlower]

theorem CaseTwins.ne {first second : String} (h : CaseTwins first second) : first ≠ second := by
  obtain ⟨c, d, rest, hc, hd, hne, -⟩ := h
  rintro rfl
  exact hne (List.cons.inj (hc.symm.trans hd)).1

theorem CaseTwins.tail_eq {first second : String} (h : CaseTwins first second) :
    first.toList.tail = second.toList.tail := by
  obtain ⟨c, d, rest, hc, hd, -⟩ := h
  rw [hc, hd]
  rfl

variable {operations : List Operation}

theorem clash_iff_of_single {form : Char → List Char} {change : Char → Char}
    (hform : ∀ c, c.toNat < 0x80 → form c = [change c])
    (hchange : ∀ c d, c.toNat < 0x80 → d.toNat < 0x80 →
      (change c = change d ↔ c.toLower = d.toLower))
    (h : ∀ operation ∈ operations, BeginsAscii operation.nickname) :
    Clash form operations ↔ TwinNicknames operations := by
  constructor
  · rintro ⟨first, hfirst, second, hsecond, hne, hfolds⟩
    exact ⟨first, hfirst, second, hsecond,
      (foldsOnto_iff_of_single hform hchange (h first hfirst) (h second hsecond) hne).mp hfolds⟩
  · rintro ⟨first, hfirst, second, hsecond, htwins⟩
    exact ⟨first, hfirst, second, hsecond, htwins.ne,
      (foldsOnto_iff_of_single hform hchange (h first hfirst) (h second hsecond) htwins.ne).mpr
        htwins⟩

theorem clash_upper_iff (h : ∀ operation ∈ operations, BeginsAscii operation.nickname) :
    Clash upperChar operations ↔ TwinNicknames operations :=
  clash_iff_of_single (fun _ hc => if_pos hc) (fun _ _ hc hd => toUpper_eq_iff hc hd) h

theorem clash_lower_iff (h : ∀ operation ∈ operations, BeginsAscii operation.nickname) :
    Clash lowerChar operations ↔ TwinNicknames operations :=
  clash_iff_of_single (fun _ hc => if_pos hc) (fun _ _ _ _ => Iff.rfl) h

end Ascii

section Lists

/-- Names are pairwise distinct where distinct keys have distinct names. -/
theorem nodup_map_iff_of_nodup {α κ ν : Type} {list : List α} {key : α → κ} (name : α → ν)
    (h : (list.map key).Nodup) :
    (list.map name).Nodup ↔ ∀ first ∈ list, ∀ second ∈ list, key first ≠ key second →
      name first ≠ name second := by
  constructor
  · intro hnames first hfirst second hsecond hkeys hname
    exact hkeys (congrArg key (List.inj_on_of_nodup_map hnames hfirst hsecond hname))
  · intro hapart
    refine (List.Nodup.of_map key h).map_on fun first hfirst second hsecond hname => ?_
    by_contra hne
    exact hapart first hfirst second hsecond
      (fun hkeys => hne (List.inj_on_of_nodup_map h hfirst hsecond hkeys)) hname

theorem optionsName_eq (operation : Operation) :
    operation.optionsName = "I" ++ optionsId operation := by
  rw [Operation.optionsName, optionsId, String.append_assoc]

theorem optionsName_eq_iff (first second : Operation) :
    first.optionsName = second.optionsName ↔
      upperFirst first.nickname.toList = upperFirst second.nickname.toList := by
  rw [optionsName_eq, optionsName_eq, String.append_right_inj, optionsId, optionsId,
    String.append_left_inj, String.ofList_inj]

theorem methodName_eq_iff (first second : Operation) :
    first.methodName = second.methodName ↔
      lowerFirst first.nickname.toList = lowerFirst second.nickname.toList := by
  rw [Operation.methodName, Operation.methodName, String.ofList_inj]

variable {resource : Resource}

/-- Names that show a change of the first characters of nicknames are pairwise distinct unless the
change makes one of two nicknames. -/
theorem WellNamed.nodup_names_iff (h : WellNamed resource) {form : Char → List Char}
    {change : List Char → List Char} {name : Operation → String}
    (hchange : ∀ c rest, change (c :: rest) = form c ++ rest)
    (hname : ∀ first second : Operation, name first = name second ↔
      change first.nickname.toList = change second.nickname.toList) :
    (resource.operations.map name).Nodup ↔ ¬ Clash form resource.operations := by
  have hfolds : ∀ first ∈ resource.operations, ∀ second ∈ resource.operations,
      (name first = name second ↔ FoldsOnto form first.nickname second.nickname ∨
        FoldsOnto form second.nickname first.nickname) := by
    intro first hfirst second hsecond
    rw [hname, change_eq_iff hchange (h.nickname_ne first hfirst) (h.nickname_ne second hsecond)]
  rw [nodup_map_iff_of_nodup name h.nodup_nicknames]
  constructor
  · rintro hapart ⟨first, hfirst, second, hsecond, hne, honto⟩
    exact hapart first hfirst second hsecond hne
      ((hfolds first hfirst second hsecond).mpr (Or.inl honto))
  · intro hclash first hfirst second hsecond hne hsame
    rcases (hfolds first hfirst second hsecond).mp hsame with honto | honto
    · exact hclash ⟨first, hfirst, second, hsecond, hne, honto⟩
    · exact hclash ⟨second, hsecond, first, hfirst, hne.symm, honto⟩

theorem WellNamed.nodup_options_iff (h : WellNamed resource) :
    (resource.operations.map Operation.optionsName).Nodup ↔
      ¬ Clash upperChar resource.operations :=
  h.nodup_names_iff (fun _ _ => rfl) optionsName_eq_iff

theorem WellNamed.nodup_methods_iff (h : WellNamed resource) :
    (resource.operations.map Operation.methodName).Nodup ↔
      ¬ Clash lowerChar resource.operations :=
  h.nodup_names_iff (fun _ _ => rfl) methodName_eq_iff

theorem WellNamed.nodup_interfaces (h : WellNamed resource) :
    (resource.models.values.map Model.interfaceName).Nodup := by
  rw [nodup_map_iff_of_nodup Model.interfaceName h.nodup_ids]
  intro first hfirst second hsecond hne hname
  obtain ⟨id, hid, -⟩ := h.id_some first hfirst
  obtain ⟨other, hother, -⟩ := h.id_some second hsecond
  rw [Model.interfaceName, Model.interfaceName, hid, hother] at hname
  rw [hid, hother, FinalFiles.eq_of_interfaceName_eq hname] at hne
  exact hne rfl

theorem WellNamed.interfaceName_eq_optionsName_iff (h : WellNamed resource) {model : Model}
    (hmodel : model ∈ resource.models.values) (operation : Operation) :
    model.interfaceName = operation.optionsName ↔ model.id = some (optionsId operation) := by
  obtain ⟨id, hid, hne⟩ := h.id_some model hmodel
  rw [Model.interfaceName, hid, Naming.interfaceName_some hne, optionsName_eq,
    String.append_right_inj, Option.some.injEq]

theorem WellNamed.nodup_append_iff (h : WellNamed resource) :
    (resource.models.values.map Model.interfaceName ++
        resource.operations.map Operation.optionsName).Nodup ↔
      ¬ Clash upperChar resource.operations ∧
        ∀ model ∈ resource.models.values, ∀ operation ∈ resource.operations,
          model.id ≠ some (optionsId operation) := by
  rw [List.nodup_append, h.nodup_options_iff, and_iff_right h.nodup_interfaces]
  refine and_congr_right fun _ => ?_
  simp only [List.forall_mem_map]
  constructor
  · intro hapart model hmodel operation hoperation hid
    exact hapart model hmodel operation hoperation
      ((h.interfaceName_eq_optionsName_iff hmodel operation).mpr hid)
  · intro hapart model hmodel operation hoperation hname
    exact hapart model hmodel operation hoperation
      ((h.interfaceName_eq_optionsName_iff hmodel operation).mp hname)

end Lists

section File

variable (docs : Bool) (name : String) (resource : Resource)

theorem declaredNames_classOf : declaredNames (classOf false docs name resource) =
    resource.models.values.map Model.interfaceName ++
      resource.operations.map Operation.optionsName := by
  rw [classOf, if_neg Bool.false_ne_true, declaredNames]
  simp only [List.map_map]
  rfl

end File

/-- In the file of a class for a resource with distinct ids and nicknames the interfaces of models
never share a name. All interfaces and options have distinct names exactly if no two nicknames
become one by the capital forms of their first characters and no model is called as options are,
and the methods have distinct names exactly if no two nicknames become one by the small forms.
Nicknames that begin with one of the first 128 characters become one, in both ways alike, exactly
if they are the same but for the case of their first letters. -/
theorem declared_names_distinct_iff (resource : Resource) (h : WellNamed resource) :
    (resource.models.values.map Model.interfaceName).Nodup ∧
    ((resource.models.values.map Model.interfaceName ++
        resource.operations.map Operation.optionsName).Nodup ↔
      ¬ Clash upperChar resource.operations ∧
        ∀ model ∈ resource.models.values, ∀ operation ∈ resource.operations,
          model.id ≠ some (optionsId operation)) ∧
    ((resource.operations.map Operation.methodName).Nodup ↔
      ¬ Clash lowerChar resource.operations) ∧
    ((∀ operation ∈ resource.operations, BeginsAscii operation.nickname) →
      (Clash upperChar resource.operations ↔ TwinNicknames resource.operations) ∧
      (Clash lowerChar resource.operations ↔ TwinNicknames resource.operations)) ∧
    ∀ docs name,
      declaredNames (classOf false docs name resource) =
        resource.models.values.map Model.interfaceName ++
          resource.operations.map Operation.optionsName ∧
      ∀ split, (classOf split docs name resource).methods.map Method.name =
        resource.operations.map Operation.methodName :=
  ⟨h.nodup_interfaces, h.nodup_append_iff, h.nodup_methods_iff,
    fun hascii => ⟨clash_upper_iff hascii, clash_lower_iff hascii⟩,
    fun docs name => ⟨declaredNames_classOf docs name resource,
      MergeFold.name_methods_classOf docs name resource⟩⟩

def petResource (id first second : String) : Resource where
  models := OrderedMap.empty.put id { id := some id }
  apis := [{
    path := "/pets"
    operations := [{ method := "GET", nickname := first },
      { method := "PUT", nickname := second }] }]

theorem wellNamed_petResource {id first second : String} (hid : id ≠ "") (hfirst : first ≠ "")
    (hsecond : second ≠ "") (hne : first ≠ second) : WellNamed (petResource id first second) where
  id_some := List.forall_mem_singleton.mpr ⟨id, rfl, hid⟩
  nodup_ids := List.nodup_singleton (some id)
  nickname_ne := List.forall_mem_cons.mpr ⟨hfirst, List.forall_mem_singleton.mpr hsecond⟩
  nodup_nicknames := List.nodup_cons.mpr
    ⟨fun h => hne (List.mem_singleton.mp h), List.nodup_singleton second⟩

def plainResource : Resource := petResource "Pet" "getPet" "findPet"

/-- All names that its file declares are distinct, and so are its methods. -/
theorem plain_nicknames_stay_apart : WellNamed plainResource ∧
    (plainResource.models.values.map Model.interfaceName ++
      plainResource.operations.map Operation.optionsName).Nodup ∧
    (plainResource.operations.map Operation.methodName).Nodup := by
  have hnamed : WellNamed plainResource :=
    wellNamed_petResource (by decide) (by decide) (by decide) (by decide)
  obtain ⟨-, hnames, hmethods, hascii, -⟩ := declared_names_distinct_iff plainResource hnamed
  have hbegins : ∀ operation ∈ plainResource.operations, BeginsAscii operation.nickname := by
    refine List.forall_mem_cons.mpr ⟨?_, List.forall_mem_singleton.mpr ?_⟩
    · simp [BeginsAscii]
    · simp [BeginsAscii]
  have htails : ∀ first ∈ plainResource.operations, ∀ second ∈ plainResource.operations,
      first.nickname.toList.tail = second.nickname.toList.tail →
        first.nickname = second.nickname := by
    decide
  have htwins : ¬ TwinNicknames plainResource.operations := by
    rintro ⟨first, hfirst, second, hsecond, htwins⟩
    exact htwins.ne (htails first hfirst second hsecond htwins.tail_eq)
  obtain ⟨hupper, hlower⟩ := hascii hbegins
  exact ⟨hnamed, hnames.mpr ⟨mt hupper.mp htwins, by decide⟩, hmethods.mpr (mt hlower.mp htwins)⟩

/-- A resource with two nicknames that differ in the case of the first letter, and a model that is
called as the options of both are. -/
def twinResource : Resource := petResource "GetPetOptions" "getPet" "GetPet"

/-- Its ids and nicknames are distinct. Its options share a name with each other and with the
interface of the model, and its methods share one. -/
theorem twin_nicknames_share_names : WellNamed twinResource ∧
    ¬ (twinResource.operations.map Operation.optionsName).Nodup ∧
    ¬ (twinResource.models.values.map Model.interfaceName).Disjoint
      (twinResource.operations.map Operation.optionsName) ∧
    ¬ (twinResource.operations.map Operation.methodName).Nodup := by
  have hoptions : twinResource.operations.map Operation.optionsName =
      ["IGetPetOptions", "IGetPetOptions"] := by cbv
  have hinterfaces : twinResource.models.values.map Model.interfaceName = ["IGetPetOptions"] := by
    cbv
  have hmethods : twinResource.operations.map Operation.methodName = ["getPet", "getPet"] := by
    cbv
  rw [hoptions, hinterfaces, hmethods]
  exact ⟨wellNamed_petResource (by decide) (by decide) (by decide) (by decide), by decide,
    fun hdisjoint => hdisjoint (List.mem_singleton_self _) (List.mem_cons_self ..), by decide⟩

end ApiClientGen.DeclaredNames
