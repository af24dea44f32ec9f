import ApiClientGen.Encoding.Utf8
import ApiClientGen.Encoding.Wide

/-!
The text of a document given as bytes. A byte order mark names the encoding; without one the
places of zero bytes among the first four show it, as the first characters of a document are
ASCII.
-/
namespace ApiClientGen.Encoding

/-- The byte order marks. The long ones come first, as one of them begins with a short one. -/
def marks : List (List UInt8 × Scheme) := [
  ([0x00, 0x00, 0xFE, 0xFF], .utf32 true), ([0xFF, 0xFE, 0x00, 0x00], .utf32 false),
  ([0xFE, 0xFF], .utf16 true), ([0xFF, 0xFE], .utf16 false), ([0xEF, 0xBB, 0xBF], .utf8)]

def unmarked : List UInt8 → Scheme
  | a :: b :: c :: d :: _ =>
    if a = 0 then (if b = 0 then .utf32 true else .utf16 true)
    else if b = 0 then (if c = 0 ∧ d = 0 then .utf32 false else .utf16 false)
    else .utf8
  | [a, b] => if a = 0 then .utf16 true else if b = 0 then .utf16 false else .utf8
  | _ => .utf8

def detect (bytes : List UInt8) : Scheme × Nat :=
  match marks.find? fun mark => mark.1.isPrefixOf bytes with
  | some (mark, scheme) => (scheme, mark.length)
  | none => (unmarked bytes, 0)

/-- The characters of a document. Places in a fault count the mark of the wide encodings, and not
that of UTF-8. -/
def decodeDocument (bytes : List UInt8) : Except Fault (List Char) :=
  let (scheme, mark) := detect bytes
  let content := bytes.drop mark
  match scheme with
  | .utf8 => Utf8.decode content
  | .utf16 bigEndian => Wide.decode16From bigEndian mark [] content
  | .utf32 bigEndian => Wide.decode32From bigEndian mark [] content

end ApiClientGen.Encoding
