import ApiClientGen.Number.Binary64
import ApiClientGen.Text.Blank
import ApiClientGen.Text.DecimalDigit

/-!
Reading a 64-bit number from free text, as a command line gives it: blanks around it are dropped,
digits of any script count, an underscore may stand between two digits, and infinity and
not-a-number may be spelled out.
-/
namespace ApiClientGen.Number

open Text

/-- A blank that may stand around a number; the four separator characters may not. -/
def isMargin (c : Char) : Bool :=
  isBlank c && !(0x1C ≤ c.toNat && c.toNat ≤ 0x1F)

/-- The ASCII digit for a decimal digit of any script; every other character stays. -/
def plainDigit (c : Char) : Char :=
  match decimalValue? c with
  | some value => Char.ofNat (0x30 + value)
  | none => c

def digitsValue (digits : List Char) : Nat :=
  digits.foldl (fun value c => 10 * value + (c.toNat - 0x30)) 0

/-- The text without the underscores, each of which has to stand between two digits. -/
def dropUnderscores? (afterDigit : Bool) : List Char → Option (List Char)
  | [] => some []
  | '_' :: rest =>
    match rest with
    | next :: _ =>
      if afterDigit && next.isDigit then dropUnderscores? false rest else none
    | [] => none
  | c :: rest => (dropUnderscores? c.isDigit rest).map (c :: ·)

/-- The exponent that follows the digits: nothing, or `e` with an optional sign and digits. -/
def exponent? : List Char → Option Int
  | [] => some 0
  | mark :: rest =>
    let (negative, digits) := match rest with
      | '-' :: digits => (true, digits)
      | '+' :: digits => (false, digits)
      | digits => (false, digits)
    if mark.toLower = 'e' && !digits.isEmpty && digits.all Char.isDigit then
      let size := (digitsValue digits : Int)
      some (if negative then -size else size)
    else none

def decimal? (negative : Bool) (text : List Char) : Option Binary64 :=
  let whole := text.takeWhile Char.isDigit
  let rest := text.dropWhile Char.isDigit
  let (fraction, rest) := match rest with
    | '.' :: behind => (behind.takeWhile Char.isDigit, behind.dropWhile Char.isDigit)
    | rest => ([], rest)
  if whole.isEmpty && fraction.isEmpty then none
  else (exponent? rest).map fun exponent =>
    Binary64.ofDecimal negative (digitsValue (whole ++ fraction)) (exponent - fraction.length)

def ofText? (text : String) : Option Binary64 := do
  let plain ← dropUnderscores? false ((trimBy isMargin text.toList).map plainDigit)
  let (negative, size) := match plain with
    | '-' :: size => (true, size)
    | '+' :: size => (false, size)
    | size => (false, size)
  let word := String.ofList (size.map Char.toLower)
  if word = "inf" ∨ word = "infinity" then some (.infinity negative)
  else if word = "nan" then some .nan
  else decimal? negative size

end ApiClientGen.Number
