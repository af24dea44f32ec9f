import ApiClientGen.Json.Value
import ApiClientGen.Number.Shortest

/-!
Writing a document value on one line, in ASCII only.
-/
namespace ApiClientGen.Json

def fourDigits (n : Nat) : List Char :=
  let digits := Nat.toDigits 16 n
  List.replicate (4 - digits.length) '0' ++ digits

def codeEscape (n : Nat) : List Char := '\\' :: 'u' :: fourDigits n

def escaped (c : Char) : List Char :=
  if c = '"' ∨ c = '\\' then ['\\', c]
  else if 0x20 ≤ c.toNat ∧ c.toNat < 0x7F then [c]
  else if c.toNat < 0x10000 then codeEscape c.toNat
  else
    let n := c.toNat - 0x10000
    codeEscape (0xD800 + n / 0x400) ++ codeEscape (0xDC00 + n % 0x400)

def printString (text : String) : String :=
  String.ofList ('"' :: text.toList.flatMap escaped ++ ['"'])

mutual

def print : Json → String
  | .null => "null"
  | .bool value => if value then "true" else "false"
  | .int value => toString value
  | .float value => value.toText Binary64.plainLayout
  | .string text => printString text
  | .list items => "[" ++ String.intercalate "," (printItems items) ++ "]"
  | .object fields => "\x7b" ++ String.intercalate "," (printFields fields) ++ "\x7d"

def printItems : List Json → List String
  | [] => []
  | item :: rest => print item :: printItems rest

def printFields : List (String × Json) → List String
  | [] => []
  | (name, value) :: rest => (printString name ++ ":" ++ print value) :: printFields rest

end

end ApiClientGen.Json
