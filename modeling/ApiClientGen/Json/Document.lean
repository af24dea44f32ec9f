import ApiClientGen.Encoding.Document
import ApiClientGen.Json.Parser

/-!
From the bytes of a document to its value.
-/
namespace ApiClientGen.Json

def ofChars (text : List Char) : Except Fault Json :=
  match parseText text with
  | .ok value => .ok value
  | .error (.problem problem left) =>
    .error (.malformed problem (Position.at text (text.length - left)))
  | .error (.longInteger digits) => .error (.longInteger digits)
  | .error (.tooDeep nest) => .error (.tooDeep nest)

def ofBytes (bytes : ByteArray) : Except Fault Json :=
  match Encoding.decodeDocument bytes.toList with
  | .ok text => ofChars text
  | .error fault => .error (.encoding fault)

end ApiClientGen.Json
