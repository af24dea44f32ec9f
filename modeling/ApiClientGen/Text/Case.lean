import ApiClientGen.Text.CaseTable
import ApiClientGen.Text.Cased

/-!
Capital and small forms of text. A character may have a form of several characters, and a capital
sigma at the end of a word has a small form of its own.
-/
namespace ApiClientGen.Text

def mapCode? (runs : List CaseRun) (n : Nat) : Option Nat :=
  runs.findSome? (·.map? n)

def upperChar (c : Char) : List Char :=
  if c.toNat < 0x80 then [c.toUpper]
  else match upperExpansions.lookup c.toNat with
    | some codes => codes.map Char.ofNat
    | none => [((mapCode? upperRuns c.toNat).map Char.ofNat).getD c]

def lowerChar (c : Char) : List Char :=
  if c.toNat < 0x80 then [c.toLower]
  else if c.toNat = 0x130 then ['i', Char.ofNat 0x307]
  else [((mapCode? lowerRuns c.toNat).map Char.ofNat).getD c]

def upper (text : List Char) : List Char :=
  text.flatMap upperChar

/-- Whether the first character that is not passed over has a case. -/
def casedNext (text : List Char) : Bool :=
  match text.dropWhile isPassedOver with
  | c :: _ => isCased c
  | [] => false

/-- The small form of a text that follows `before`, whose characters are listed nearest first.
A capital sigma with a cased letter before it and none behind it takes its final form. -/
def lowerAfter (before : List Char) : List Char → List Char
  | [] => []
  | c :: rest =>
    let small :=
      if c.toNat = 0x3A3 ∧ casedNext before ∧ ¬ casedNext rest then [Char.ofNat 0x3C2]
      else lowerChar c
    small ++ lowerAfter (c :: before) rest

def lower (text : List Char) : List Char :=
  lowerAfter [] text

def upperFirst : List Char → List Char
  | [] => []
  | c :: rest => upperChar c ++ rest

def lowerFirst : List Char → List Char
  | [] => []
  | c :: rest => lowerChar c ++ rest

end ApiClientGen.Text
