import ApiClientGen.Proofs.DeclaredLines
import ApiClientGen.Proofs.OutputModes
import Mathlib.Data.List.Infix

/-!
The outline of a class file: its lines that import or declare something. No other line can be
taken for one of them, whatever the descriptions say. So a file declares each interface, the
options of each operation, the class and each method once, in the order of the resource, or it
imports the interfaces that it names.
-/
namespace ApiClientGen.ClassOutline

open Declaration DeclaredLines Text TextLines
open OutputModes (interfaceLine)

/-- The words with which the lines begin that import or declare something. -/
def openers : List String := ["import ", "export interface ", "export class ", "  async "]

def begins (words : String) (line : List Char) : Bool := words.toList.isPrefixOf line

def linesWith (words text : String) : List String :=
  ((lines text).filter (begins words)).map String.ofList

def fromInterfaces (line : List Char) : Bool := decide (" from \"./interfaces/".toList <:+: line)

def importsInterface (line : List Char) : Bool := fromInterfaces line && begins "import " line

def interfaceOpening (model : Model) : String :=
  "export interface " ++ model.interfaceName ++ " \x7b"

def optionsOpening (operation : Operation) : String :=
  "export interface " ++ operation.optionsName ++ " extends IOperationOptions \x7b"

def classOpening (name : String) : String := "export class " ++ name ++ " extends Api \x7b"

def methodOpening (operation : Operation) : String :=
  "  async " ++ operation.methodName ++ "(options" ++ optionalMark (optionsOptional operation) ++
    ": " ++ operation.optionsName ++ "): Promise<" ++ operation.returnType ++ "> \x7b"

/-- The lines that open the class of a resource and its methods. -/
def classBlock (name : String) (resource : Resource) : List String :=
  classOpening name :: resource.operations.map methodOpening

def isOpening (line : String) : Bool := openers.any fun words => begins words line.toList

/-- The lines of a list that import or declare something. -/
def outline (list : List String) : List String := list.filter isOpening

/-- A text that cannot begin a line of the outline: neither it nor any of the openers begins with
the other. -/
def Apart (front : String) : Prop :=
  ∀ words ∈ openers, ¬ words.toList <+: front.toList ∧ ¬ front.toList <+: words.toList

instance (front : String) : Decidable (Apart front) := inferInstanceAs (Decidable (∀ _ ∈ _, _))

section Outline

variable {first second list : List String}

/-- Whatever follows a front that stands apart from the openers, the line is no opening. -/
theorem isOpening_append {front : String} (h : Apart front) (rest : String) :
    isOpening (front ++ rest) = false := by
  rw [isOpening, List.any_eq_false]
  intro words hwords hbegins
  rw [begins, List.isPrefixOf_iff_prefix, String.toList_append] at hbegins
  rcases List.prefix_or_prefix_of_prefix hbegins (List.prefix_append _ _) with hfront | hback
  · exact (h words hwords).1 hfront
  · exact (h words hwords).2 hback

@[simp] theorem outline_append : outline (first ++ second) = outline first ++ outline second :=
  List.filter_append ..

/-- The outline of blocks of which each has one opening is the list of these. -/
theorem outline_flatMap_of_map {α : Type} {f : α → List String} {g : α → String}
    (h : ∀ item, outline (f item) = [g item]) (items : List α) :
    outline (items.flatMap f) = items.map g := by
  rw [outline, List.filter_flatMap]
  have hone : ∀ item, (f item).filter isOpening = [g item] := h
  simp only [hone]
  exact List.flatMap_pure_eq_map ..

/-- Blocks without openings have an empty outline together. -/
theorem outline_flatMap_of_nil {α : Type} {f : α → List String}
    (h : ∀ item, outline (f item) = []) (items : List α) : outline (items.flatMap f) = [] := by
  rw [outline, List.filter_flatMap, List.flatMap_eq_nil_iff]
  exact fun item _ => h item

theorem outline_eq_nil (h : ∀ line ∈ list, isOpening line = false) : outline list = [] := by
  rw [outline, List.filter_eq_nil_iff]
  intro line hline
  rw [h line hline]
  exact Bool.false_ne_true

theorem outline_of_apart {front : String} (h : Apart front) (rest : String) :
    outline [front ++ rest] = [] :=
  outline_eq_nil (List.forall_mem_singleton.mpr (isOpening_append h rest))

theorem outline_of_begins {words : String} (h : words ∈ openers)
    (hbegins : ∀ line ∈ list, begins words line.toList = true) : outline list = list := by
  rw [outline, List.filter_eq_self]
  exact fun line hline => List.any_eq_true.mpr ⟨words, h, hbegins line hline⟩

theorem outline_opening {words line : String} (h : words ∈ openers)
    (hbegins : begins words line.toList = true) : outline [line] = [line] :=
  outline_of_begins h (List.forall_mem_singleton.mpr hbegins)

theorem outline_spaced (block : List String) : outline (spaced block) = outline block := rfl

/-- A comment is no opening, whatever stands in it. -/
theorem outline_commentLines {indent : String} (h : Apart (indent ++ "// ")) (comment : String) :
    outline (commentLines indent comment) = [] := by
  rw [commentLines]
  split
  · rfl
  · exact outline_of_apart h comment

end Outline

section Openings

theorem begins_append (words rest : String) : begins words (words ++ rest).toList = true := by
  rw [begins, List.isPrefixOf_iff_prefix, String.toList_append]
  exact List.prefix_append _ _

theorem begins_importLine (names file : String) :
    begins "import " (importLine names file).toList = true := by
  have hbrace : "import \x7b " = "import " ++ "\x7b " := by decide
  simp only [importLine, hbrace, String.append_assoc]
  exact begins_append _ _

theorem begins_imports (names : List String) :
    ∀ line ∈ importLine "Api" "./Api" :: names.map interfaceLine,
      begins "import " line.toList = true := by
  rw [List.forall_mem_cons, List.forall_mem_map]
  exact ⟨begins_importLine _ _, fun name _ => begins_importLine _ _⟩

theorem begins_interfaceOpening (model : Model) :
    begins "export interface " (interfaceOpening model).toList = true := by
  unfold interfaceOpening
  rw [String.append_assoc]
  exact begins_append _ _

theorem begins_optionsOpening (operation : Operation) :
    begins "export interface " (optionsOpening operation).toList = true := by
  unfold optionsOpening
  rw [String.append_assoc]
  exact begins_append _ _

theorem begins_classOpening (name : String) :
    begins "export class " (classOpening name).toList = true := by
  unfold classOpening
  rw [String.append_assoc]
  exact begins_append _ _

theorem begins_methodOpening (operation : Operation) :
    begins "  async " (methodOpening operation).toList = true := by
  unfold methodOpening
  simp only [String.append_assoc]
  exact begins_append _ _

/-- No line begins with two of the openers. -/
theorem begins_iff {words front line : String} (hwords : words ∈ openers)
    (hfront : front ∈ openers) (h : begins front line.toList = true) :
    begins words line.toList = true ↔ words = front := by
  have hopeners : ∀ words ∈ openers, ∀ front ∈ openers,
      words.toList <+: front.toList → words = front := by decide
  refine ⟨fun hbegins => ?_, fun heq => heq ▸ h⟩
  rw [begins, List.isPrefixOf_iff_prefix] at h hbegins
  rcases List.prefix_or_prefix_of_prefix hbegins h with hprefix | hprefix
  · exact hopeners words hwords front hfront hprefix
  · exact (hopeners front hfront words hwords hprefix).symm

/-- Of lines that all begin with one of the openers either all begin with some opener or none. -/
theorem filter_begins {words front : String} (hwords : words ∈ openers) (hfront : front ∈ openers)
    {block : List String} (h : ∀ line ∈ block, begins front line.toList = true) :
    block.filter (fun line => begins words line.toList) =
      if words = front then block else [] := by
  split
  case isTrue heq =>
    rw [List.filter_eq_self]
    exact fun line hline => (begins_iff hwords hfront (h line hline)).mpr heq
  case isFalse hne =>
    rw [List.filter_eq_nil_iff]
    exact fun line hline hbegins => hne ((begins_iff hwords hfront (h line hline)).mp hbegins)

end Openings

section Declarations

/-- A key ends where a mark or a colon stands, so that it cannot be the first word of a method. -/
theorem isOpening_member (name : String) {rest : String} {c : Char} {more : List Char}
    (hrest : rest.toList = c :: more) (hc : Naming.isIdentifierChar c = false)
    (hspace : c ≠ ' ') :
    isOpening ("  " ++ (memberKey name ++ rest)) = false := by
  have hline : ("  " ++ (memberKey name ++ rest)).toList =
      ' ' :: ' ' :: ((memberKey name).toList ++ c :: more) := by
    simp [hrest]
  have hmethod :
      begins "  async " (' ' :: ' ' :: ((memberKey name).toList ++ c :: more)) = false := by
    rw [begins, Bool.eq_false_iff, ne_eq, List.isPrefixOf_iff_prefix]
    rintro ⟨tail, htail⟩
    have hkey : "async".toList ++ ' ' :: tail = (memberKey name).toList ++ c :: more :=
      (List.append_right_inj [' ', ' ']).mp htail
    have hread := readMemberKey_append name hc more
    rw [← hkey, readMemberKey_identifier (by decide) (by decide)] at hread
    simp only [Option.some.injEq, Prod.mk.injEq, List.cons.injEq] at hread
    exact hspace hread.2.1.symm
  rw [isOpening, openers, List.any_cons, List.any_cons, List.any_cons, List.any_cons, hline,
    hmethod]
  rfl

/-- A property gives no opening: a space follows the word of a method, and none follows a key. -/
theorem outline_member (required : List String) (name : String) (property : Property) :
    outline (memberOf required name property).lines = [] := by
  have hline : isOpening ("  " ++ (memberKey name ++ (optionalMark (!required.contains name) ++
      (": " ++ (property.typeName ++ ";"))))) = false := by
    cases required.contains name with
    | false =>
      have hmark : (optionalMark true ++ (": " ++ (property.typeName ++ ";"))).toList =
          '?' :: (": " ++ (property.typeName ++ ";")).toList := by simp [optionalMark]
      exact isOpening_member name hmark (by decide) (by decide)
    | true =>
      have hmark : (optionalMark false ++ (": " ++ (property.typeName ++ ";"))).toList =
          ':' :: (" " ++ (property.typeName ++ ";")).toList := by simp [optionalMark]
      exact isOpening_member name hmark (by decide) (by decide)
  rw [Member.lines, outline_append, outline_commentLines (by decide), List.nil_append]
  refine outline_eq_nil (List.forall_mem_singleton.mpr ?_)
  simpa only [memberOf, String.append_assoc] using hline

/-- Of an interface only its first line is an opening. -/
theorem outline_interface (model : Model) :
    outline (interfaceOf false model).lines = [interfaceOpening model] := by
  have hbody : (interfaceOf false model).body = [interfaceOpening model] ++
      (model.properties.entries.map fun entry => memberOf model.required entry.1 entry.2).flatMap
        Member.lines ++ ["\x7d"] := rfl
  have hmember : ∀ entry : String × Property,
      outline (memberOf model.required entry.1 entry.2).lines = [] :=
    fun entry => outline_member model.required entry.1 entry.2
  have hmembers : outline ((model.properties.entries.map fun entry =>
      memberOf model.required entry.1 entry.2).flatMap Member.lines) = [] := by
    rw [List.flatMap_map]
    exact outline_flatMap_of_nil hmember _
  have hfirst : outline [interfaceOpening model] = [interfaceOpening model] :=
    outline_opening (by decide) (begins_interfaceOpening model)
  have hheader : outline (interfaceOf false model).header = [] := rfl
  rw [Interface.lines, outline_append, hheader, hbody, outline_append, outline_append, hmembers,
    hfirst]
  rfl

theorem outline_optionMember (member : OptionMember) : outline member.lines = [] := by
  rw [OptionMember.lines, outline_append, outline_commentLines (by decide), List.nil_append]
  simp only [String.append_assoc]
  exact outline_of_apart (by decide) _

theorem outline_optionGroup (group : OptionGroup) : outline group.lines = [] := by
  have hmembers : outline (group.members.flatMap OptionMember.lines) = [] :=
    outline_flatMap_of_nil outline_optionMember _
  have hfirst :
      outline ["  " ++ group.field ++ optionalMark group.optional ++ ": \x7b"] = [] := by
    have hfield : Apart ("  " ++ group.field) := by
      rw [OptionGroup.field]
      cases group.location <;> decide
    rw [String.append_assoc]
    exact outline_of_apart hfield _
  rw [OptionGroup.lines, outline_append, outline_append, hmembers, hfirst]
  rfl

/-- Of options only their first line is an opening. -/
theorem outline_options (operation : Operation) :
    outline (optionsOf false operation).lines = [optionsOpening operation] := by
  have hbody : (optionsOf false operation).body = [optionsOpening operation] ++
      (groupsOf operation).flatMap OptionGroup.lines ++ ["\x7d"] := rfl
  have hgroups : outline ((groupsOf operation).flatMap OptionGroup.lines) = [] :=
    outline_flatMap_of_nil outline_optionGroup _
  have hfirst : outline [optionsOpening operation] = [optionsOpening operation] :=
    outline_opening (by decide) (begins_optionsOpening operation)
  have hheader : outline (optionsOf false operation).header = [] := rfl
  rw [Options.lines, outline_append, hheader, hbody, outline_append, outline_append, hgroups,
    hfirst]
  rfl

/-- No line of a comment block is an opening. -/
theorem outline_docBlock (method : Method) : outline method.docBlock = [] := by
  have hstarred : ∀ line, isOpening (starred line) = false := by
    intro line
    rw [starred]
    split
    · decide
    · exact isOpening_append (by decide) line
  rw [Method.docBlock]
  split
  · rfl
  · have hdoc : outline (method.doc.map starred) = [] :=
      outline_eq_nil (List.forall_mem_map.mpr fun line _ => hstarred line)
    rw [outline_append, outline_append, hdoc]
    rfl

/-- Of a method only its first line is an opening. -/
theorem outline_method (docs : Bool) (path : String) (operation : Operation) :
    outline (methodOf docs path operation).lines = [methodOpening operation] := by
  have hbody : (methodOf docs path operation).body =
      [methodOpening operation] ++
        ["    return this.requestJson<" ++ operation.returnType ++ ">(\x7b method: '" ++
          String.ofList (upper operation.method.toList) ++ "', path: '" ++ path ++
          "', ...options \x7d);"] ++ ["  \x7d"] := rfl
  have hfirst : outline [methodOpening operation] = [methodOpening operation] :=
    outline_opening (by decide) (begins_methodOpening operation)
  have hcall : outline ["    return this.requestJson<" ++ operation.returnType ++
      ">(\x7b method: '" ++ String.ofList (upper operation.method.toList) ++ "', path: '" ++
        path ++ "', ...options \x7d);"] = [] := by
    simp only [String.append_assoc]
    exact outline_of_apart (by decide) _
  rw [Method.lines, outline_append, outline_docBlock, hbody, outline_append, outline_append,
    hfirst, hcall]
  rfl

end Declarations

section Files

variable (docs : Bool) (name : String) (resource : Resource)

/-- The outline of a class is its first line and the first lines of its methods. -/
theorem outline_body (split : Bool) :
    outline (classOf split docs name resource).body =
      classBlock name resource := by
  have hbody : (classOf split docs name resource).body =
      [""] ++ commentLines "" (descriptionLine resource.description) ++
        ([classOpening name] ++ ["  constructor(token: string) \x7b"] ++
          ["    super(\x7b url: '" ++ resource.basePath ++ "', token \x7d);"] ++ ["  \x7d"]) ++
        ((classOf split docs name resource).methods.flatMap fun method => spaced method.lines) ++
        ["\x7d"] := rfl
  have hclass : outline [classOpening name] = [classOpening name] :=
    outline_opening (by decide) (begins_classOpening name)
  have hsuper :
      outline ["    super(\x7b url: '" ++ resource.basePath ++ "', token \x7d);"] = [] := by
    rw [String.append_assoc]
    exact outline_of_apart (by decide) _
  have hmethod : ∀ target : String × Operation,
      outline (spaced (methodOf docs target.1 target.2).lines) = [methodOpening target.2] :=
    fun target => (outline_spaced _).trans (outline_method docs target.1 target.2)
  have hmethods : outline ((classOf split docs name resource).methods.flatMap fun method =>
      spaced method.lines) = resource.operations.map methodOpening := by
    rw [classOf, List.flatMap_map, Resource.operations, List.map_map]
    exact outline_flatMap_of_map hmethod _
  have hcomment : outline (commentLines "" (descriptionLine resource.description)) = [] :=
    outline_commentLines (by decide) _
  have hopen : outline [""] = [] ∧ outline ["  constructor(token: string) \x7b"] = [] ∧
      outline ["  \x7d"] = [] ∧ outline ["\x7d"] = [] := by decide
  simp only [hbody, outline_append, hclass, hsuper, hmethods, hcomment, hopen]
  rw [List.append_nil]
  rfl

/-- The outline of a class file that declares its interfaces itself. -/
theorem outline_inline :
    outline (classOf false docs name resource).lines =
      [importLine "Api, IOperationOptions" "./Api"] ++
        (resource.models.values.map interfaceOpening ++ resource.operations.map optionsOpening) ++
        classBlock name resource := by
  have hlines : (classOf false docs name resource).lines =
      [importLine "Api, IOperationOptions" "./Api"] ++
        (((resource.models.values.map (interfaceOf false)).flatMap fun interface =>
          spaced interface.lines) ++
        ((resource.operations.map (optionsOf false)).flatMap fun options =>
          spaced options.lines)) ++
        (classOf false docs name resource).body := rfl
  have hinterface : ∀ model,
      outline (spaced (interfaceOf false model).lines) = [interfaceOpening model] :=
    fun model => (outline_spaced _).trans (outline_interface model)
  have hinterfaces : outline ((resource.models.values.map (interfaceOf false)).flatMap
      fun interface => spaced interface.lines) = resource.models.values.map interfaceOpening := by
    rw [List.flatMap_map]
    exact outline_flatMap_of_map hinterface _
  have hoption : ∀ operation,
      outline (spaced (optionsOf false operation).lines) = [optionsOpening operation] :=
    fun operation => (outline_spaced _).trans (outline_options operation)
  have hoptions : outline ((resource.operations.map (optionsOf false)).flatMap
      fun options => spaced options.lines) = resource.operations.map optionsOpening := by
    rw [List.flatMap_map]
    exact outline_flatMap_of_map hoption _
  have himport : outline [importLine "Api, IOperationOptions" "./Api"] =
      [importLine "Api, IOperationOptions" "./Api"] :=
    outline_opening (by decide) (begins_importLine _ _)
  rw [hlines, outline_append, outline_append, outline_append, himport, hinterfaces, hoptions,
    outline_body]

/-- The outline of a class file that imports its interfaces. -/
theorem outline_imported :
    outline (classOf true docs name resource).lines =
      importLine "Api" "./Api" :: (classImports resource).map interfaceLine ++
        classBlock name resource := by
  have hlines : (classOf true docs name resource).lines =
      (importLine "Api" "./Api" :: (classImports resource).map interfaceLine) ++
        (classOf true docs name resource).body := rfl
  have himports :
      outline (importLine "Api" "./Api" :: (classImports resource).map interfaceLine) =
        importLine "Api" "./Api" :: (classImports resource).map interfaceLine :=
    outline_of_begins (by decide) (begins_imports _)
  rw [hlines, outline_append, himports, outline_body]

/-- What begins with an opener is in the outline. -/
theorem filter_outline {words : String} (hwords : words ∈ openers) (list : List String) :
    (outline list).filter (fun line => begins words line.toList) =
      list.filter fun line => begins words line.toList := by
  rw [outline, List.filter_filter]
  refine List.filter_congr fun line _ => ?_
  cases hbegins : begins words line.toList with
  | false => rfl
  | true =>
    have hopening : isOpening line = true := List.any_eq_true.mpr ⟨words, hwords, hbegins⟩
    rw [hopening]
    rfl

theorem filter_classBlock {words : String} (hwords : words ∈ openers) :
    (classBlock name resource).filter (fun line => begins words line.toList) =
      (if words = "export class " then [classOpening name] else []) ++
        if words = "  async " then resource.operations.map methodOpening else [] := by
  have hclass : ∀ line ∈ [classOpening name], begins "export class " line.toList = true :=
    List.forall_mem_singleton.mpr (begins_classOpening name)
  have hmethods : ∀ line ∈ resource.operations.map methodOpening,
      begins "  async " line.toList = true :=
    List.forall_mem_map.mpr fun operation _ => begins_methodOpening operation
  rw [classBlock, ← List.singleton_append, List.filter_append,
    filter_begins hwords (by decide) hclass, filter_begins hwords (by decide) hmethods]

theorem filter_inline {words : String} (hwords : words ∈ openers) :
    (classOf false docs name resource).lines.filter (fun line => begins words line.toList) =
      (if words = "import " then [importLine "Api, IOperationOptions" "./Api"] else []) ++
        (if words = "export interface " then
          resource.models.values.map interfaceOpening ++ resource.operations.map optionsOpening
        else []) ++
        (classBlock name resource).filter (fun line => begins words line.toList) := by
  have himport : ∀ line ∈ [importLine "Api, IOperationOptions" "./Api"],
      begins "import " line.toList = true :=
    List.forall_mem_singleton.mpr (begins_importLine _ _)
  have hinterfaces : ∀ line ∈ resource.models.values.map interfaceOpening ++
      resource.operations.map optionsOpening, begins "export interface " line.toList = true := by
    rw [List.forall_mem_append, List.forall_mem_map, List.forall_mem_map]
    exact ⟨fun model _ => begins_interfaceOpening model,
      fun operation _ => begins_optionsOpening operation⟩
  rw [← filter_outline hwords, outline_inline, List.filter_append, List.filter_append,
    filter_begins hwords (by decide) himport, filter_begins hwords (by decide) hinterfaces]

theorem filter_imported {words : String} (hwords : words ∈ openers) :
    (classOf true docs name resource).lines.filter (fun line => begins words line.toList) =
      (if words = "import " then
          importLine "Api" "./Api" :: (classImports resource).map interfaceLine
        else []) ++
        (classBlock name resource).filter (fun line => begins words line.toList) := by
  rw [← filter_outline hwords, outline_imported, List.filter_append,
    filter_begins hwords (by decide) (begins_imports _)]

/-- The lines of the text are the lines of the declaration. -/
theorem linesWith_class (hname : SingleLine name) (htexts : AllSingle resource.texts)
    (split : Bool) (words : String) :
    linesWith words (classText split docs name resource) =
      (classOf split docs name resource).lines.filter fun line => begins words line.toList :=
  filter_lines_unlines (allSingle_class hname htexts split docs) _

/-- What stands in front of a class has none of the other openers. -/
theorem linesWith_of_ne (hname : SingleLine name) (htexts : AllSingle resource.texts)
    (split : Bool) {words : String} (hwords : words ∈ openers) (himport : words ≠ "import ")
    (hinterface : words ≠ "export interface ") :
    linesWith words (classText split docs name resource) =
      (classBlock name resource).filter fun line => begins words line.toList := by
  rw [linesWith_class docs name resource hname htexts]
  cases split with
  | false => rw [filter_inline docs name resource hwords, if_neg himport, if_neg hinterface]; rfl
  | true => rw [filter_imported docs name resource hwords, if_neg himport]; rfl

theorem fromInterfaces_interfaceLine (name : String) :
    fromInterfaces (interfaceLine name).toList = true := by
  have hmark : " from \"./interfaces/".toList = " from \"".toList ++ "./interfaces/".toList := by
    decide
  have hclose : " \x7d from \"".toList = " \x7d".toList ++ " from \"".toList := rfl
  refine decide_eq_true ⟨"import \x7b ".toList ++ name.toList ++ " \x7d".toList,
    name.toList ++ "\";".toList, ?_⟩
  rw [hmark, interfaceLine, importLine]
  simp only [hclose, String.toList_append, List.append_assoc]

theorem filter_interfaceLines (names : List String) :
    (importLine "Api" "./Api" :: names.map interfaceLine).filter
      (fun line => fromInterfaces line.toList) = names.map interfaceLine := by
  have hapi :
      [importLine "Api" "./Api"].filter (fun line => fromInterfaces line.toList) = [] := by
    decide
  rw [← List.singleton_append, List.filter_append, hapi, List.nil_append, List.filter_eq_self,
    List.forall_mem_map]
  exact fun name _ => fromInterfaces_interfaceLine name

/-- A class file declares or imports what its resource holds, each thing once and in order. -/
theorem class_file_declares_in_order (hname : SingleLine name)
    (htexts : AllSingle resource.texts) :
    linesWith "export interface " (classText false docs name resource) =
        resource.models.values.map interfaceOpening ++ resource.operations.map optionsOpening ∧
      linesWith "export interface " (classText true docs name resource) = [] ∧
      (∀ split,
        linesWith "export class " (classText split docs name resource) = [classOpening name] ∧
        linesWith "  async " (classText split docs name resource) =
          resource.operations.map methodOpening) ∧
      ((lines (classText true docs name resource)).filter importsInterface).map String.ofList =
        (classImports resource).map interfaceLine := by
  have hopeners : "export interface " ∈ openers ∧ "export class " ∈ openers ∧
      "  async " ∈ openers ∧ "import " ∈ openers := by decide
  obtain ⟨hinterface, hclass, hmethod, himport⟩ := hopeners
  refine ⟨?_, ?_, fun split => ⟨?_, ?_⟩, ?_⟩
  · rw [linesWith_class docs name resource hname htexts,
      filter_inline docs name resource hinterface, filter_classBlock name resource hinterface]
    simp
  · rw [linesWith_class docs name resource hname htexts,
      filter_imported docs name resource hinterface, filter_classBlock name resource hinterface]
    simp
  · rw [linesWith_of_ne docs name resource hname htexts split hclass (by decide) (by decide),
      filter_classBlock name resource hclass]
    simp
  · rw [linesWith_of_ne docs name resource hname htexts split hmethod (by decide) (by decide),
      filter_classBlock name resource hmethod]
    simp
  · have himports : (classOf true docs name resource).lines.filter
        (fun line => begins "import " line.toList) =
          importLine "Api" "./Api" :: (classImports resource).map interfaceLine := by
      rw [filter_imported docs name resource himport, filter_classBlock name resource himport]
      simp
    rw [classText, filter_lines_unlines (allSingle_class hname htexts true docs),
      ← filter_interfaceLines, ← himports, List.filter_filter]
    rfl

end Files

/-- A resource whose descriptions and names look like declarations, with an operation that is
described twice. -/
def unrulyResource : Resource :=
  let fetch : Operation :=
    { method := "GET"
      nickname := "fetchPet"
      type := some "Pet"
      summary := some "first\n  async no("
      notes := some "*/\nexport interface INo \x7b"
      parameters := [
        { name := "async", location := some .query, description := some "\n  async no(" }] }
  { description := some "Pets.\nexport class No extends Api \x7b"
    models := OrderedMap.empty.put "Pet"
      { id := some "Pet"
        properties := (OrderedMap.empty.put "async" { type := some "string" }).put
          "export interface No"
          { type := some "integer",
            description := some "\nimport No from \"./interfaces/No\";" } }
    apis := [
      { path := "/pets", operations := [fetch, { method := "DELETE", nickname := "dropPets" }] },
      { path := "/pet", operations := [fetch] }] }

theorem unruly_class_declares_in_order :
    SingleLine "Pets" ∧ AllSingle unrulyResource.texts ∧
      linesWith "export interface " (classText false true "Pets" unrulyResource) =
        ["export interface IPet \x7b",
          "export interface IFetchPetOptions extends IOperationOptions \x7b",
          "export interface IDropPetsOptions extends IOperationOptions \x7b",
          "export interface IFetchPetOptions extends IOperationOptions \x7b"] ∧
      linesWith "export class " (classText false true "Pets" unrulyResource) =
        ["export class Pets extends Api \x7b"] ∧
      linesWith "  async " (classText true true "Pets" unrulyResource) =
        ["  async fetchPet(options?: IFetchPetOptions): Promise<IPet> \x7b",
          "  async dropPets(options?: IDropPetsOptions): Promise<unknown> \x7b",
          "  async fetchPet(options?: IFetchPetOptions): Promise<IPet> \x7b"] ∧
      ((lines (classText true true "Pets" unrulyResource)).filter importsInterface).map
          String.ofList =
        ["import \x7b IFetchPetOptions \x7d from \"./interfaces/IFetchPetOptions\";",
          "import \x7b IPet \x7d from \"./interfaces/IPet\";",
          "import \x7b IDropPetsOptions \x7d from \"./interfaces/IDropPetsOptions\";"] := by
  have hname : SingleLine "Pets" := by decide
  have htexts : AllSingle unrulyResource.texts := by decide +kernel
  obtain ⟨hinterfaces, -, hbody, himports⟩ :=
    class_file_declares_in_order true "Pets" unrulyResource hname htexts
  refine ⟨hname, htexts, ?_, ?_, ?_, ?_⟩
  · rw [hinterfaces]
    decide +kernel
  · rw [(hbody false).1]
    decide +kernel
  · rw [(hbody true).2]
    decide +kernel
  · rw [himports]
    decide +kernel

end ApiClientGen.ClassOutline
