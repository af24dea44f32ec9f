import ApiClientGen.Proofs.ClassOutline
import Mathlib.Data.List.Infix

/-!
The literals of a class file that say where its requests go: the URL of the class and the path of
each method. A value stands between its quotes as it is, so that it reads back exactly if it holds
neither a quote, which would close the literal, nor a backslash, which would be read together with
the character behind it.
-/
namespace ApiClientGen.RequestLiterals

open Declaration OutputModes Text

/-- A text that stands for itself between quotes. -/
def Verbatim (value : List Char) : Prop := '\'' ∉ value ∧ '\\' ∉ value

instance (value : List Char) : Decidable (Verbatim value) := inferInstanceAs (Decidable (_ ∧ _))

section Spelling

variable {body value rest left : List Char}

/-- What a literal spells out has the quotes of its value. -/
theorem count_quote_of_spells (h : Spells body value) : body.count '\'' = value.count '\'' := by
  induction h with
  | nil => rfl
  | escaped c _ ih => rw [List.count_cons_of_ne (by decide), List.count_cons, List.count_cons, ih]
  | plain _ _ _ ih => rw [List.count_cons, List.count_cons, ih]

theorem length_le_of_spells (h : Spells body value) : value.length ≤ body.length := by
  induction h with
  | nil => exact le_rfl
  | escaped c _ ih =>
    simp only [List.length_cons]
    omega
  | plain _ _ _ ih => exact Nat.succ_le_succ ih

/-- Where nothing is escaped the value stands for itself. -/
theorem verbatim_of_spells (h : Spells body value) (hsame : body.length = value.length) :
    Verbatim value := by
  induction h with
  | nil => exact ⟨List.not_mem_nil, List.not_mem_nil⟩
  | escaped c hbody =>
    have hle := length_le_of_spells hbody
    simp only [List.length_cons] at hsame
    omega
  | plain hbackslash hquote _ ih =>
    obtain ⟨hquotes, hbackslashes⟩ := ih (Nat.succ_injective hsame)
    constructor
    · rw [List.mem_cons, not_or]
      exact ⟨Ne.symm hquote, hquotes⟩
    · rw [List.mem_cons, not_or]
      exact ⟨Ne.symm hbackslash, hbackslashes⟩

theorem flatMap_literalChar_of_verbatim (h : Verbatim value) :
    value.flatMap literalChar = value := by
  have hsame : ∀ c ∈ value, literalChar c = [c] := by
    intro c hc
    rw [literalChar, if_neg]
    rintro (rfl | rfl)
    · exact h.2 hc
    · exact h.1 hc
  rw [List.flatMap_congr hsame]
  exact List.flatMap_singleton' value

/-- A value between quotes, put there as it is, reads back exactly if it stands for itself. A
quote or a backslash in it cannot be made good by what follows the literal. -/
theorem readLiteralBody_eq_self_iff :
    readLiteralBody (value ++ '\'' :: rest) = some (value, left) ↔
      Verbatim value ∧ left = rest := by
  constructor
  · intro h
    obtain ⟨spelling, hspells, hsplit⟩ := exists_spells_of_readLiteralBody h
    -- A longer spelling would hold the quotes of the value and also the one behind it.
    have hsame : spelling.length = value.length := by
      by_contra hne
      have hlong : (value ++ ['\'']).length ≤ spelling.length := by
        have hle := length_le_of_spells hspells
        simp only [List.length_append, List.length_singleton]
        omega
      have hvalue : value ++ ['\''] <+: value ++ '\'' :: rest := ⟨rest, by simp⟩
      have hspelling : spelling <+: value ++ '\'' :: rest := ⟨'\'' :: left, hsplit.symm⟩
      have hquotes :=
        (List.prefix_of_prefix_length_le hvalue hspelling hlong).sublist.count_le '\''
      rw [List.count_append, List.count_singleton_self, count_quote_of_spells hspells] at hquotes
      omega
    obtain ⟨-, htail⟩ := List.append_inj hsplit hsame.symm
    exact ⟨verbatim_of_spells hspells hsame, ((List.cons.inj htail).2).symm⟩
  · rintro ⟨hverbatim, rfl⟩
    have hread := readLiteralBody_append value left
    rwa [flatMap_literalChar_of_verbatim hverbatim] at hread

end Spelling

/-- What stands around a value in a text: the text in front of it, which ends with the mark that
announces it, and the text behind its closing quote. -/
structure Frame where
  lead : String
  mark : String
  tail : String

def Frame.around (frame : Frame) (value : String) : String :=
  frame.lead ++ frame.mark ++ "'" ++ value ++ "'" ++ frame.tail

/-- The value of the literal in a frame at the start of a text, and what follows the frame. -/
def Frame.read? (frame : Frame) (text : List Char) : Option (List Char × List Char) :=
  (text.dropPrefix? (frame.lead ++ frame.mark).toList).bind fun inner =>
    (readLiteral inner).bind fun (value, behind) =>
      (behind.dropPrefix? frame.tail.toList).map fun left => (value, left)

/-- The values in frames that stand one behind the other, and what follows the last one. -/
def readAll? : List Frame → List Char → Option (List (List Char) × List Char)
  | [], text => some ([], text)
  | frame :: frames, text =>
    (frame.read? text).bind fun (value, behind) =>
      (readAll? frames behind).map fun (values, left) => (value :: values, left)

def filled (places : List (Frame × String)) : String :=
  String.join (places.map fun place => place.1.around place.2)

theorem filled_cons (place : Frame × String) (places : List (Frame × String)) :
    filled (place :: places) = place.1.around place.2 ++ filled places := by
  rw [filled, List.map_cons, String.join_cons, filled]

section Reading

variable (frame : Frame) (value : String) (rest left : List Char)

theorem toList_around :
    (frame.around value).toList ++ rest =
      (frame.lead ++ frame.mark).toList ++
        '\'' :: (value.toList ++ '\'' :: (frame.tail.toList ++ rest)) := by
  simp [Frame.around]

theorem read?_around_iff :
    frame.read? ((frame.around value).toList ++ rest) = some (value.toList, left) ↔
      Verbatim value.toList ∧ left = rest := by
  rw [toList_around, Frame.read?, List.dropPrefix?_append_of_beq _ BEq.rfl, Option.bind_some,
    readLiteral, Option.bind_eq_some_iff]
  constructor
  · rintro ⟨⟨found, behind⟩, hread, htail⟩
    obtain ⟨after, hafter, heq⟩ := Option.map_eq_some_iff.mp htail
    cases heq
    obtain ⟨hverbatim, rfl⟩ := readLiteralBody_eq_self_iff.mp hread
    rw [List.dropPrefix?_append_of_beq _ BEq.rfl, Option.some.injEq] at hafter
    exact ⟨hverbatim, hafter.symm⟩
  · rintro ⟨hverbatim, rfl⟩
    have htail : (frame.tail.toList ++ left).dropPrefix? frame.tail.toList = some left :=
      List.dropPrefix?_append_of_beq _ BEq.rfl
    exact ⟨_, readLiteralBody_eq_self_iff.mpr ⟨hverbatim, rfl⟩, congrArg (Option.map _) htail⟩

/-- One value that does not stand for itself is enough to lose its place or the places behind
it. -/
theorem readAll?_filled_iff (places : List (Frame × String)) :
    readAll? (places.map Prod.fst) ((filled places).toList ++ rest) =
        some (places.map fun place => place.2.toList, left) ↔
      (∀ place ∈ places, Verbatim place.2.toList) ∧ left = rest := by
  induction places with
  | nil =>
    rw [and_iff_right (List.forall_mem_nil _)]
    simp [readAll?, filled, eq_comm]
  | cons place places ih =>
    rw [filled_cons, String.toList_append, List.append_assoc, List.map_cons, List.map_cons,
      readAll?, Option.bind_eq_some_iff, List.forall_mem_cons,
      and_assoc, ← ih]
    constructor
    · rintro ⟨⟨found, behind⟩, hread, hrest⟩
      obtain ⟨⟨values, after⟩, hvalues, heq⟩ := Option.map_eq_some_iff.mp hrest
      cases heq
      obtain ⟨hverbatim, rfl⟩ := (read?_around_iff ..).mp hread
      exact ⟨hverbatim, hvalues⟩
    · rintro ⟨hverbatim, hvalues⟩
      exact ⟨_, (read?_around_iff ..).mpr ⟨hverbatim, rfl⟩, congrArg (Option.map _) hvalues⟩

end Reading

section Class

/-- The frame of the URL of a class: all of the file up to it, and the end of the constructor. -/
def urlFrame (split : Bool) (name : String) (resource : Resource) : Frame where
  lead := (if split then importedFront resource else inlineFront resource) ++
    unlines ("" :: commentLines "" (descriptionLine resource.description) ++
      [ClassOutline.classOpening name, "  constructor(token: string) \x7b"]) ++ "    super(\x7b "
  mark := "url: "
  tail := ", token \x7d);\n  \x7d\n"

/-- The frame of the path of a method: the method and its documentation up to the path, and the
end of the method. -/
def pathFrame (docs : Bool) (operation : Operation) : Frame where
  lead := "\n" ++ (if docs then docText operation else "") ++
    ClassOutline.methodOpening operation ++ "\n" ++ "    return this.requestJson<" ++
      operation.returnType ++ ">(\x7b method: '" ++
        String.ofList (upper operation.method.toList) ++ "', "
  mark := "path: "
  tail := ", ...options \x7d);\n  \x7d\n"

/-- The values that a class file shows in the literals of its URL and of its paths. -/
def places (split docs : Bool) (name : String) (resource : Resource) : List (Frame × String) :=
  (urlFrame split name resource, resource.basePath) ::
    resource.targets.map fun target => (pathFrame docs target.2, target.1)

variable (split docs : Bool) (name : String) (resource : Resource)

theorem around_urlFrame :
    (urlFrame split name resource).around resource.basePath =
      (if split then importedFront resource else inlineFront resource) ++
        classHead name resource := by
  have hline : "    super(\x7b url: '" = "    super(\x7b " ++ ("url: " ++ "'") := by decide
  have hend : "', token \x7d);" ++ ("\n" ++ ("  \x7d" ++ "\n")) =
      "'" ++ ", token \x7d);\n  \x7d\n" := by
    decide
  have hnone : unlines [] = "" := rfl
  rw [Frame.around, urlFrame, classHead]
  simp only [hline, hend, hnone, ClassOutline.classOpening, unlines_append, unlines_cons,
    String.append_assoc, String.append_empty, String.empty_append]

theorem around_pathFrame (path : String) (operation : Operation) :
    (pathFrame docs operation).around path = "\n" ++ methodText docs path operation := by
  have hpath : "', path: '" = "', " ++ ("path: " ++ "'") := by decide
  have hend : "', ...options \x7d);" ++ ("\n" ++ ("  \x7d" ++ "\n")) =
      "'" ++ ", ...options \x7d);\n  \x7d\n" := by
    decide
  have hnone : unlines [] = "" := rfl
  have hdoc : (methodOf false path operation).docBlock = [] := rfl
  rw [Frame.around, pathFrame, methodText_documented, methodText, Method.lines, hdoc, Method.body]
  simp only [hpath, hend, hnone, ClassOutline.methodOpening, methodOf, unlines_append,
    unlines_cons, String.append_assoc, String.append_empty, String.empty_append]

theorem classText_eq :
    classText split docs name resource = filled (places split docs name resource) ++
      "\x7d\n" := by
  have hmethods : inRow (resource.targets.map fun target => methodText docs target.1 target.2) =
      filled (resource.targets.map fun target => (pathFrame docs target.2, target.1)) := by
    rw [inRow, filled, List.map_map, List.map_map]
    exact congrArg String.join (List.map_congr_left fun target _ =>
      (around_pathFrame docs target.1 target.2).symm)
  have hfront : classText split docs name resource =
      (if split then importedFront resource else inlineFront resource) ++
        classPart docs name resource := by
    cases split with
    | false => exact classText_inline docs name resource
    | true => exact classText_imported docs name resource
  rw [hfront, classPart, hmethods, places, filled_cons, around_urlFrame, String.append_assoc,
    String.append_assoc, String.append_assoc]

/-- Reading a class file along its fixed text gives back the URL of the class and, method by
method, the paths, with the last line of the file left. -/
def ReadsBack : Prop :=
  readAll? ((places split docs name resource).map Prod.fst)
      (classText split docs name resource).toList =
    some ((resource.basePath :: resource.targets.map Prod.fst).map String.toList, "\x7d\n".toList)

theorem readsBack_iff :
    ReadsBack split docs name resource ↔
      ∀ value ∈ resource.basePath :: resource.targets.map Prod.fst, Verbatim value.toList := by
  have hvalues : (places split docs name resource).map Prod.snd =
      resource.basePath :: resource.targets.map Prod.fst := by
    simp [places]
  have hread :=
    readAll?_filled_iff "\x7d\n".toList "\x7d\n".toList (places split docs name resource)
  rw [and_iff_left rfl, ← String.toList_append, ← classText_eq] at hread
  rw [ReadsBack, ← hvalues, List.map_map, List.forall_mem_map]
  exact hread

/-- What stands behind the mark of a place, with the later places and the last line of the
file. -/
def behindMark (place : Frame × String) (later : List (Frame × String)) : String :=
  "'" ++ (place.2 ++ ("'" ++ (place.1.tail ++ (filled later ++ "\x7d\n"))))

variable {earlier later : List (Frame × String)} {place : Frame × String}

theorem classText_eq_at (h : places split docs name resource = earlier ++ place :: later) :
    classText split docs name resource =
      filled earlier ++ (place.1.lead ++ (place.1.mark ++ behindMark place later)) := by
  rw [classText_eq, h, filled, List.map_append, String.join_append, List.map_cons,
    String.join_cons, ← filled, ← filled, Frame.around, behindMark]
  simp only [String.append_assoc]

theorem readLiteral_behindMark_iff :
    (∃ left, readLiteral (behindMark place later).toList = some (place.2.toList, left)) ↔
      Verbatim place.2.toList := by
  have htext : (behindMark place later).toList =
      '\'' :: (place.2.toList ++ '\'' ::
        (place.1.tail ++ (filled later ++ "\x7d\n")).toList) := by
    simp [behindMark]
  rw [htext, readLiteral]
  simp only [readLiteralBody_eq_self_iff, exists_and_left, exists_eq, and_true]

end Class

/-- A class file is the text around the literals of its URL and of the paths of its methods, with
these values between quotes as they are. Reading it gives them back exactly if none of them holds
a quote or a backslash, and so it is with each of them alone. -/
theorem request_literals_read_back_iff (split docs : Bool) (name : String) (resource : Resource) :
    classText split docs name resource = filled (places split docs name resource) ++ "\x7d\n" ∧
      (places split docs name resource).map (fun place => (place.1.mark, place.2)) =
        ("url: ", resource.basePath) ::
          resource.targets.map (fun target => ("path: ", target.1)) ∧
      (ReadsBack split docs name resource ↔
        ∀ value ∈ resource.basePath :: resource.targets.map Prod.fst, Verbatim value.toList) ∧
      ∀ earlier place later, places split docs name resource = earlier ++ place :: later →
        ∃ behind, classText split docs name resource =
            filled earlier ++ (place.1.lead ++ (place.1.mark ++ behind)) ∧
          ((∃ left, readLiteral behind.toList = some (place.2.toList, left)) ↔
            Verbatim place.2.toList) := by
  refine ⟨classText_eq split docs name resource, ?_, readsBack_iff split docs name resource,
    fun earlier place later hplace => ⟨behindMark place later, ?_, readLiteral_behindMark_iff⟩⟩
  · simp [places, urlFrame, pathFrame]
  · exact classText_eq_at split docs name resource hplace

/-- A resource with an apostrophe in its URL. -/
def apostropheResource : Resource where
  basePath := "http://a/it's"
  apis := [{ path := "/pets", operations := [{ method := "GET", nickname := "list" }] }]

/-- The file does not read back, but the path on its own does. -/
theorem path_reads_back_beside_apostrophe :
    ¬ ReadsBack false true "Pets" apostropheResource ∧
      ∃ front behind left, classText false true "Pets" apostropheResource =
          front ++ ("path: " ++ behind) ∧
        readLiteral behind.toList = some ("/pets".toList, left) := by
  obtain ⟨-, -, hall, heach⟩ :=
    request_literals_read_back_iff false true "Pets" apostropheResource
  refine ⟨fun hread => absurd (hall.mp hread) (by decide), ?_⟩
  obtain ⟨behind, htext, hread⟩ := heach [(urlFrame false "Pets" apostropheResource, _)]
    (pathFrame true { method := "GET", nickname := "list" }, "/pets") [] rfl
  obtain ⟨left, hleft⟩ := hread.mpr (by decide)
  rw [← String.append_assoc] at htext
  exact ⟨_, behind, left, htext, hleft⟩

/-- The apostrophe in a URL closes the literal, and what reads back is the URL up to it. -/
theorem apostrophe_closes_url_literal :
    ¬ ReadsBack false true "Pets" apostropheResource ∧
      ∃ behind left, classText false true "Pets" apostropheResource =
          (urlFrame false "Pets" apostropheResource).lead ++ ("url: " ++ behind) ∧
        readLiteral behind.toList = some ("http://a/it".toList, left) := by
  constructor
  · rw [readsBack_iff]
    decide
  · set place := (urlFrame false "Pets" apostropheResource, "http://a/it's") with hplace
    set later := apostropheResource.targets.map fun target => (pathFrame true target.2, target.1)
    have htext : classText false true "Pets" apostropheResource =
        filled [] ++ (place.1.lead ++ (place.1.mark ++ behindMark place later)) :=
      classText_eq_at false true "Pets" apostropheResource rfl
    have hbehind : (behindMark place later).toList =
        '\'' :: ("http://a/it".toList ++ '\'' ::
          ("s'" ++ (place.1.tail ++ (filled later ++ "\x7d\n"))).toList) := by
      simp [behindMark, hplace]
    have hverbatim : Verbatim "http://a/it".toList := by decide
    exact ⟨behindMark place later, _, htext.trans String.empty_append,
      (congrArg readLiteral hbehind).trans (readLiteralBody_eq_self_iff.mpr ⟨hverbatim, rfl⟩)⟩

end ApiClientGen.RequestLiterals
