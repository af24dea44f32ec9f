/-!
The ways in which bytes fail to be text, each with the place of the first bytes that are no
character.
-/
namespace ApiClientGen.Encoding

inductive Scheme
  | utf8
  | utf16 (bigEndian : Bool)
  | utf32 (bigEndian : Bool)
  deriving DecidableEq, Repr

def Scheme.name : Scheme → String
  | .utf8 => "utf-8"
  | .utf16 bigEndian => if bigEndian then "utf-16-be" else "utf-16-le"
  | .utf32 bigEndian => if bigEndian then "utf-32-be" else "utf-32-le"

inductive Reason
  | startByte
  | continuationByte
  | endOfData
  | truncated
  | outOfRange
  deriving DecidableEq, Repr

def Reason.message : Reason → String
  | .startByte => "invalid start byte"
  | .continuationByte => "invalid continuation byte"
  | .endOfData => "unexpected end of data"
  | .truncated => "truncated data"
  | .outOfRange => "code point not in range(0x110000)"

/-- `count` bytes from `start` on are no character; `first` is the first of them. -/
structure Fault where
  scheme : Scheme
  start : Nat
  count : Nat
  first : UInt8
  reason : Reason
  deriving DecidableEq, Repr

def hexByte (byte : UInt8) : String :=
  let digits := Nat.toDigits 16 byte.toNat
  String.ofList (List.replicate (2 - digits.length) '0' ++ digits)

/-- The wording of a fault. A single byte is shown, several are given by their places. -/
def Fault.message (fault : Fault) : String :=
  let place :=
    if fault.count = 1 then s!"byte 0x{hexByte fault.first} in position {fault.start}"
    else s!"bytes in position {fault.start}-{fault.start + fault.count - 1}"
  s!"'{fault.scheme.name}' codec can't decode {place}: {fault.reason.message}"

/-- What stands for half of a surrogate pair, which is no character by itself. -/
def replacement : Char := Char.ofNat 0xFFFD

end ApiClientGen.Encoding
