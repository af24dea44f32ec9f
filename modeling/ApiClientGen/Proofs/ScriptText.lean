import ApiClientGen.Declaration.ClientClass
import ApiClientGen.Json.Document

/-!
The file of a class is no document: it begins with an import, and no JSON value begins so. A run
that comes to read such a file in place of a document fails.
-/
namespace ApiClientGen.ScriptText

open Declaration

variable {text : List Char}

/-- What cannot be read as a document. -/
def NoDocument (body : ByteArray) : Prop :=
  ∀ value, Json.ofBytes body ≠ .ok value

section Bytes

/-- The bytes from a place on stand behind those that were already listed. -/
theorem loop_eq (bytes : ByteArray) (start : Nat) (listed : List UInt8) :
    ByteArray.toList.loop bytes start listed =
      listed.reverse ++ bytes.data.toList.drop start := by
  fun_induction ByteArray.toList.loop bytes start listed with
  | case1 start listed hstart ih =>
    have hbyte : bytes.data.toList.drop start =
        bytes.get! start :: bytes.data.toList.drop (start + 1) := by
      rw [List.drop_eq_getElem_cons (by simpa using hstart)]
      congr 1
      cases bytes with
      | mk data => exact (getElem!_pos data start hstart).symm
    rw [ih, hbyte, List.reverse_cons, List.append_assoc, List.singleton_append]
  | case2 start listed hend =>
    rw [List.drop_eq_nil_of_le (by simpa using hend), List.append_nil]

theorem toList_append (first second : ByteArray) :
    (first ++ second).toList = first.toList ++ second.toList := by
  rw [ByteArray.toList, ByteArray.toList, ByteArray.toList, loop_eq, loop_eq, loop_eq]
  simp

/-- Characters that were read stay in front of those that are read later. -/
theorem decodeFrom_prefix {start : Nat} {listed : List Char} {left : List UInt8}
    (h : Encoding.Utf8.decodeFrom start listed left = .ok text) : listed.reverse <+: text := by
  fun_induction Encoding.Utf8.decodeFrom start listed left with
  | case1 start listed =>
    cases h
    exact List.prefix_rfl
  | case2 start listed first rest c behind hfirst ih =>
    have hlonger := ih h
    rw [List.reverse_cons] at hlonger
    exact (List.prefix_append _ _).trans hlonger
  | case3 => cases h

end Bytes

/-- No value begins as an import does. -/
theorem parseText_import (rest : List Char) :
    Json.parseText ('i' :: rest) = .error (.problem .value (rest.length + 1)) := by
  have hatom : Json.atom ('i' :: rest) = .error (.problem .value (rest.length + 1)) := by
    simp [Json.atom, Json.names, Json.numeral?, Json.magnitude?]
  have hvalue : Json.value Json.nestingLimit (Json.skipSpace ('i' :: rest)) =
      .error (.problem .value (rest.length + 1)) := by
    change Json.value Json.nestingLimit ('i' :: rest) = _
    rw [Json.value.eq_def]
    dsimp only
    rw [if_neg (by decide), if_neg (by decide), if_neg (by decide), hatom]
    rfl
  rw [Json.parseText, hvalue]

theorem decodeDocument_import {left : List UInt8}
    (h : Encoding.decodeDocument ("import \x7b ".toByteArray.toList ++ left) = .ok text) :
    ['i'] <+: text := by
  have hword : "import \x7b ".toByteArray.toList =
      [0x69, 0x6D, 0x70, 0x6F, 0x72, 0x74, 0x20, 0x7B, 0x20] := by
    rw [ByteArray.toList, loop_eq]
    rfl
  rw [hword] at h
  have hplain : Encoding.detect
      ([0x69, 0x6D, 0x70, 0x6F, 0x72, 0x74, 0x20, 0x7B, 0x20] ++ left) = (.utf8, 0) := by
    simp [Encoding.detect, Encoding.marks, Encoding.unmarked]
  rw [Encoding.decodeDocument, hplain] at h
  simp only [List.drop_zero, List.cons_append] at h
  rw [Encoding.Utf8.decode, Encoding.Utf8.decodeFrom] at h
  exact decodeFrom_prefix h

/-- A text that begins with an import is no document. -/
theorem noDocument_of_import (behind : String) :
    NoDocument ("import \x7b " ++ behind).toUTF8 := by
  intro value hvalue
  rw [String.toUTF8_eq_toByteArray, String.toByteArray_append] at hvalue
  rw [Json.ofBytes, toList_append] at hvalue
  split at hvalue
  · rename_i text htext
    obtain ⟨rest, rfl⟩ := decodeDocument_import htext
    rw [List.singleton_append, Json.ofChars, parseText_import] at hvalue
    cases hvalue
  · cases hvalue

/-- The file of a class is no document. -/
theorem noDocument_classText (split docs : Bool) (name : String) (resource : Resource) :
    NoDocument (classText split docs name resource).toUTF8 := by
  have hfirst : ∃ names rest,
      (classOf split docs name resource).lines = importLine names "./Api" :: rest := by
    rw [ClientClass.lines, classOf]
    cases split with
    | true => exact ⟨_, _, rfl⟩
    | false => exact ⟨_, _, rfl⟩
  obtain ⟨names, rest, hlines⟩ := hfirst
  rw [classText, hlines, Text.unlines_cons, importLine]
  simp only [String.append_assoc]
  exact noDocument_of_import _

end ApiClientGen.ScriptText
