import ApiClientGen.Encoding.Fault

/-!
Reading bytes as units of two or four bytes, in either byte order.
-/
namespace ApiClientGen.Encoding.Wide

/-- The number whose bytes, most significant first, are given. -/
def bytesValue (bytes : List UInt8) : Nat :=
  bytes.foldl (fun value byte => 256 * value + byte.toNat) 0

def unit (bigEndian : Bool) (bytes : List UInt8) : Nat :=
  bytesValue (if bigEndian then bytes else bytes.reverse)

def isHigh (n : Nat) : Bool := 0xD800 ≤ n && n ≤ 0xDBFF

def isLow (n : Nat) : Bool := 0xDC00 ≤ n && n ≤ 0xDFFF

def plain (n : Nat) : Char :=
  if isHigh n || isLow n then replacement else Char.ofNat n

def joined (high low : Nat) : Char :=
  Char.ofNat (0x10000 + (high - 0xD800) * 0x400 + (low - 0xDC00))

def decode16From (bigEndian : Bool) (start : Nat) (read : List Char) :
    List UInt8 → Except Fault (List Char)
  | [] => .ok read.reverse
  | [last] => .error ⟨.utf16 bigEndian, start, 1, last, .truncated⟩
  | a :: b :: rest =>
    let n := unit bigEndian [a, b]
    match rest with
    | c :: d :: behind =>
      let m := unit bigEndian [c, d]
      if isHigh n && isLow m then decode16From bigEndian (start + 4) (joined n m :: read) behind
      else decode16From bigEndian (start + 2) (plain n :: read) (c :: d :: behind)
    | rest => decode16From bigEndian (start + 2) (plain n :: read) rest
  termination_by bytes => bytes.length

def decode32From (bigEndian : Bool) (start : Nat) (read : List Char) :
    List UInt8 → Except Fault (List Char)
  | [] => .ok read.reverse
  | a :: b :: c :: d :: rest =>
    let n := unit bigEndian [a, b, c, d]
    if n < 0x110000 then decode32From bigEndian (start + 4) (plain n :: read) rest
    else .error ⟨.utf32 bigEndian, start, 4, a, .outOfRange⟩
  | first :: rest => .error ⟨.utf32 bigEndian, start, rest.length + 1, first, .truncated⟩

end ApiClientGen.Encoding.Wide
