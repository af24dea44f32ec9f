import ApiClientGen.CommandLine.Usage
import ApiClientGen.Text.DecimalDigit

/-!
The words of a command line by kind. A word that begins with a minus sign is a switch if it spells
one, is an unambiguous beginning of one, or does either in front of an equals sign; otherwise it
is an operand only if it is the sign alone, a negative number, or holds a space.
-/
namespace ApiClientGen.CommandLine

/-- How a value hangs on the word of its switch: not at all, behind an equals sign, or
directly. -/
inductive Attached
  | nothing
  | assigned (value : String)
  | glued (value : String)
  deriving DecidableEq, Repr

inductive Word
  | operand (text : String)
  | separator
  | switch (switch : Switch) (attached : Attached)
  | stray (text : String)
  deriving DecidableEq, Repr

def cutValue (text : List Char) : List Char × Attached :=
  match text.dropWhile (· ≠ '=') with
  | _ :: value => (text.takeWhile (· ≠ '='), .assigned (String.ofList value))
  | [] => (text, .nothing)

def spelled? (text : List Char) : Option Switch :=
  (spellings.find? fun entry => entry.1.toList == text).map Prod.snd

def candidates (text : List Char) : List (String × Switch) :=
  spellings.filter fun entry => text.isPrefixOf entry.1.toList

def allDigits (text : List Char) : Bool := text.all fun c => (Text.decimalValue? c).isSome

/-- Whether a word is a negative number in positional notation. A line feed may close it. -/
def isNegativeNumber (text : List Char) : Bool :=
  match text with
  | '-' :: size =>
    let size := if size.getLast? = some '\n' then size.dropLast else size
    let whole := size.takeWhile (· ≠ '.')
    match size.dropWhile (· ≠ '.') with
    | [] => !whole.isEmpty && allDigits whole
    | _ :: fraction => allDigits whole && !fraction.isEmpty && allDigits fraction
  | _ => false

def unspelled (text : List Char) : Word :=
  if isNegativeNumber text || text.contains ' ' then .operand (String.ofList text)
  else .stray (String.ofList text)

/-- The kind of a word of two characters at least whose first is a minus sign, and which as a
whole spells no switch. -/
def readSwitch (text : List Char) : Except Misuse Word :=
  let (front, attached) := cutValue text
  match spelled? front with
  | some switch => .ok (.switch switch attached)
  | none =>
    if ['-', '-'].isPrefixOf text then
      match candidates front with
      | [] => .ok (unspelled text)
      | [(_, switch)] => .ok (.switch switch attached)
      | several => .error (.ambiguous (String.ofList text) (several.map Prod.fst))
    else
      match spelled? (text.take 2) with
      | some switch => .ok (.switch switch (.glued (String.ofList (text.drop 2))))
      | none => .ok (unspelled text)

def readWord (word : String) : Except Misuse Word :=
  match word.toList with
  | '-' :: c :: rest =>
    match spelled? ('-' :: c :: rest) with
    | some switch => .ok (.switch switch .nothing)
    | none => readSwitch ('-' :: c :: rest)
  | _ => .ok (.operand word)

/-- The kinds of the words of a command line. Behind two minus signs all are operands. -/
def readWords : List String → Except Misuse (List Word)
  | [] => .ok []
  | word :: rest =>
    if word = "--" then .ok (.separator :: rest.map .operand)
    else do
      let first ← readWord word
      let others ← readWords rest
      return first :: others

end ApiClientGen.CommandLine
