import ApiClientGen.Encoding.Utf8
import ApiClientGen.Json.Parser

/-!
Percent-encoding. A character outside the safe set of its component is written as the percent
codes of its bytes; a percent code that is already there stays.
-/
namespace ApiClientGen.Web

open Json (hexValue?)

def isHexDigit (c : Char) : Bool := (hexValue? c).isSome

def percentCode (byte : UInt8) : List Char :=
  let digits := (Nat.toDigits 16 byte.toNat).map Char.toUpper
  '%' :: (List.replicate (2 - digits.length) '0' ++ digits)

def percentCodes (c : Char) : List Char :=
  (String.singleton c).toUTF8.toList.flatMap percentCode

/-- A text with the characters outside the safe set encoded. -/
def encode (safe : Char → Bool) : List Char → List Char
  | '%' :: a :: b :: rest =>
    if isHexDigit a && isHexDigit b then '%' :: a :: b :: encode safe rest
    else (if safe '%' then ['%'] else percentCodes '%') ++ encode safe (a :: b :: rest)
  | c :: rest => (if safe c then [c] else percentCodes c) ++ encode safe rest
  | [] => []

def percentBytes : List Char → List UInt8
  | '%' :: a :: b :: rest =>
    match hexValue? a, hexValue? b with
    | some high, some low => UInt8.ofNat (high * 16 + low) :: percentBytes rest
    | _, _ => 0x25 :: percentBytes (a :: b :: rest)
  | c :: rest => (String.singleton c).toUTF8.toList ++ percentBytes rest
  | [] => []

/-- A text with its percent codes resolved. -/
def decodePercents (text : List Char) : List Char :=
  Encoding.Utf8.decodeLoosely (percentBytes text)

def isVisible (c : Char) : Bool := 0x20 < c.toNat && c.toNat < 0x7F

def fragmentSafe (c : Char) : Bool := isVisible c && !(['"', '<', '>', '\x60'].contains c)

def querySafe (c : Char) : Bool := isVisible c && !(['"', '#', '<', '>'].contains c)

def pathSafe (c : Char) : Bool :=
  querySafe c && !(['?', '\x60', '\x7b', '\x7d'].contains c)

def userSafe (c : Char) : Bool :=
  pathSafe c && !(['/', ';', '=', '@', '[', '\\', ']', '^', '|'].contains c)

def hostSafe (c : Char) : Bool :=
  c.isAlphanum || ['-', '.', '_', '~', '!', '$', '&', '\'', '(', ')', '*', '+', ',', ';', '=',
    '"', '\x60', '\x7b', '\x7d', '%', '|', '\\'].contains c

end ApiClientGen.Web
