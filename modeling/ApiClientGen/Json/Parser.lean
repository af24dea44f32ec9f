import ApiClientGen.Json.Fault
import ApiClientGen.Json.Value
import ApiClientGen.Number.Reading
import ApiClientGen.OrderedMap

/-!
Reading a document from its characters. Each step returns what it read together with what is left
of the text, and what is left is shorter; so the reading ends. A fault is placed by the number of
characters left at it.
-/
namespace ApiClientGen.Json

open Number

/-- A fault while reading: a problem with the number of characters left at its place, an integer
with too many digits, or a list or an object for which there is no room. -/
inductive Stop
  | problem (problem : Problem) (left : Nat)
  | longInteger (digits : Nat)
  | tooDeep (nest : Nest)

abbrev Left (s : List Char) := { r : List Char // r.length ≤ s.length }

abbrev Rest (s : List Char) := { r : List Char // r.length < s.length }

def isSpace (c : Char) : Bool := c = ' ' || c = '\t' || c = '\n' || c = '\r'

theorem length_dropWhile_le (p : Char → Bool) (s : List Char) :
    (s.dropWhile p).length ≤ s.length :=
  (List.dropWhile_sublist p).length_le

theorem length_le_self (s : List Char) : s.length ≤ s.length := Nat.le_refl _

def entire (s : List Char) : Left s := ⟨s, length_le_self s⟩

def skipSpace (s : List Char) : Left s :=
  ⟨s.dropWhile isSpace, length_dropWhile_le ..⟩

def next (s : List Char) : Left s :=
  ⟨s.tail.dropWhile isSpace,
    Nat.le_trans (length_dropWhile_le ..) (by simp only [List.length_tail]; omega)⟩

def digits (s : List Char) : List Char × Left s :=
  (s.takeWhile Char.isDigit, ⟨s.dropWhile Char.isDigit, length_dropWhile_le ..⟩)

def hexValue? (c : Char) : Option Nat :=
  if '0' ≤ c ∧ c ≤ '9' then some (c.toNat - 0x30)
  else if 'a' ≤ c ∧ c ≤ 'f' then some (c.toNat - 0x61 + 10)
  else if 'A' ≤ c ∧ c ≤ 'F' then some (c.toNat - 0x41 + 10)
  else none

def hex4? : List Char → Option Nat
  | a :: b :: c :: d :: _ => do
    let a ← hexValue? a
    let b ← hexValue? b
    let c ← hexValue? c
    let d ← hexValue? d
    return ((a * 16 + b) * 16 + c) * 16 + d
  | _ => none

/-- The character of a code; half of a surrogate pair is no character by itself. -/
def codeChar (code : Nat) : Char :=
  if 0xD800 ≤ code ∧ code ≤ 0xDFFF then Encoding.replacement else Char.ofNat code

/-- The character of an escape by its code, and the number of characters read. `s` begins behind
the `u`; one character at least has to follow the digits. Two escapes in a row may be the halves
of a pair. -/
def unicodeEscape (s : List Char) : Except Stop (Char × Nat) :=
  let fault := .error (.problem .unicodeEscape (s.length + 1))
  if s.length ≤ 4 then fault
  else match hex4? s with
    | none => fault
    | some high =>
      match s.drop 4 with
      | '\\' :: 'u' :: second =>
        if 0xD800 ≤ high ∧ high ≤ 0xDBFF ∧ 4 < second.length then
          match hex4? second with
          | none => .error (.problem .unicodeEscape (second.length + 1))
          | some low =>
            if 0xDC00 ≤ low ∧ low ≤ 0xDFFF then
              .ok (Char.ofNat (0x10000 + (high - 0xD800) * 0x400 + (low - 0xDC00)), 10)
            else .ok (codeChar high, 4)
        else .ok (codeChar high, 4)
      | _ => .ok (codeChar high, 4)

def letterEscape? : Char → Option Char
  | '"' => some '"'
  | '\\' => some '\\'
  | '/' => some '/'
  | 'b' => some '\x08'
  | 'f' => some '\x0c'
  | 'n' => some '\n'
  | 'r' => some '\r'
  | 't' => some '\t'
  | _ => none

/-- The rest of a string behind the characters of `read`, which are listed last first. `opening`
is the number of characters left at the opening quote. -/
def stringBody (opening : Nat) (read : List Char) (s : List Char) :
    Except Stop (String × Rest s) :=
  match s with
  | [] => .error (.problem .unterminated opening)
  | c :: r =>
    if c = '"' then .ok (String.ofList read.reverse, ⟨r, by simp⟩)
    else if c = '\\' then
      match r with
      | [] => .error (.problem .unterminated opening)
      | letter :: behind =>
        if letter = 'u' then
          match unicodeEscape behind with
          | .error stop => .error stop
          | .ok (char, count) =>
            match stringBody opening (char :: read) (behind.drop count) with
            | .error stop => .error stop
            | .ok (text, ⟨rest, h⟩) =>
              .ok (text, ⟨rest, by simp only [List.length_drop, List.length_cons] at *; omega⟩)
        else
          match letterEscape? letter with
          | none => .error (.problem .escape (behind.length + 2))
          | some char =>
            match stringBody opening (char :: read) behind with
            | .error stop => .error stop
            | .ok (text, ⟨rest, h⟩) => .ok (text, ⟨rest, by simp only [List.length_cons]; omega⟩)
    else if c.toNat < 0x20 then .error (.problem .control (r.length + 1))
    else
      match stringBody opening (c :: read) r with
      | .error stop => .error stop
      | .ok (text, ⟨rest, h⟩) => .ok (text, ⟨rest, by simp only [List.length_cons]; omega⟩)
  termination_by s.length
  decreasing_by all_goals simp only [List.length_drop, List.length_cons]; omega

structure Numeral where
  negative : Bool
  whole : List Char
  fraction : List Char
  exponent : Option Int

/-- The value of a numeral: an integer when it has neither fraction nor exponent. -/
def Numeral.value (n : Numeral) : Except Stop Json :=
  match n.fraction, n.exponent with
  | [], none =>
    if digitLimit < n.whole.length then .error (.longInteger n.whole.length)
    else
      let size := (digitsValue n.whole : Int)
      .ok (.int (if n.negative then -size else size))
  | fraction, exponent =>
    .ok (.float (Binary64.ofDecimal n.negative (digitsValue (n.whole ++ fraction))
      (exponent.getD 0 - fraction.length)))

/-- The digits behind a point; a point without them is not part of the number. -/
def fraction (s : List Char) : List Char × Left s :=
  match s with
  | '.' :: r =>
    match digits r with
    | ([], _) => ([], entire ('.' :: r))
    | (found, ⟨rest, h⟩) => (found, ⟨rest, by simp only [List.length_cons]; omega⟩)
  | s => ([], entire s)

def sign (s : List Char) : Bool × Left s :=
  match s with
  | '-' :: r => (true, ⟨r, by simp⟩)
  | '+' :: r => (false, ⟨r, by simp⟩)
  | s => (false, entire s)

def exponent (s : List Char) : Option Int × Left s :=
  match s with
  | mark :: r =>
    if mark = 'e' ∨ mark = 'E' then
      match sign r with
      | (negative, ⟨r', h⟩) =>
        match digits r' with
        | ([], _) => (none, entire (mark :: r))
        | (found, ⟨rest, h'⟩) =>
          let size := (digitsValue found : Int)
          (some (if negative then -size else size),
            ⟨rest, by simp only [List.length_cons]; omega⟩)
    else (none, entire (mark :: r))
  | [] => (none, entire [])

def tail (negative : Bool) (whole : List Char) (s : List Char) : Numeral × Left s :=
  match fraction s with
  | (behind, ⟨r, h⟩) =>
    match exponent r with
    | (power, ⟨rest, h'⟩) => (⟨negative, whole, behind, power⟩, ⟨rest, by omega⟩)

/-- A number without its sign: a zero, or digits of which the first is not zero. -/
def magnitude? (negative : Bool) (s : List Char) : Option (Numeral × Rest s) :=
  match s with
  | c :: r =>
    if c = '0' then
      match tail negative ['0'] r with
      | (numeral, ⟨rest, h⟩) => some (numeral, ⟨rest, by simp only [List.length_cons]; omega⟩)
    else if c.isDigit then
      match digits r with
      | (more, ⟨r', h⟩) =>
        match tail negative (c :: more) r' with
        | (numeral, ⟨rest, h'⟩) => some (numeral, ⟨rest, by simp only [List.length_cons]; omega⟩)
    else none
  | [] => none

def numeral? (s : List Char) : Option (Numeral × Rest s) :=
  match s with
  | '-' :: r =>
    match magnitude? true r with
    | some (numeral, ⟨rest, h⟩) => some (numeral, ⟨rest, by simp only [List.length_cons]; omega⟩)
    | none => none
  | s => magnitude? false s

def names : List (List Char × Json) :=
  [("null".toList, .null), ("true".toList, .bool true), ("false".toList, .bool false),
    ("NaN".toList, .float .nan), ("Infinity".toList, .float (.infinity false)),
    ("-Infinity".toList, .float (.infinity true))]

def atom (s : List Char) : Except Stop (Json × Rest s) :=
  match names.find? fun entry => entry.1.isPrefixOf s with
  | some (name, value) =>
    if h : (s.drop name.length).length < s.length then .ok (value, ⟨s.drop name.length, h⟩)
    else .error (.problem .value s.length)
  | none =>
    match numeral? s with
    | some (numeral, rest) => numeral.value.map (·, rest)
    | none => .error (.problem .value s.length)

mutual

/-- A value at the start of a text, with room for so many lists and objects within each other. -/
def value (room : Nat) (s : List Char) : Except Stop (Json × Rest s) :=
  match s with
  | [] => .error (.problem .value 0)
  | c :: r =>
    if c = '"' then
      match stringBody (r.length + 1) [] r with
      | .error stop => .error stop
      | .ok (text, ⟨rest, h⟩) =>
          .ok (.string text, ⟨rest, by simp only [List.length_cons]; omega⟩)
    else if c = '{' then
      match room with
      | 0 => .error (.tooDeep .object)
      | room + 1 =>
        match skipSpace r with
        | ⟨r₁, h₁⟩ =>
          if r₁.head? = some '}' then
            .ok (.object [], ⟨r₁.tail, by simp only [List.length_tail, List.length_cons]; omega⟩)
          else
            match members room [] r₁ with
            | .error stop => .error stop
            | .ok (fields, ⟨rest, h⟩) =>
              .ok (.object fields, ⟨rest, by simp only [List.length_cons]; omega⟩)
    else if c = '[' then
      match room with
      | 0 => .error (.tooDeep .list)
      | room + 1 =>
        match skipSpace r with
        | ⟨r₁, h₁⟩ =>
          if r₁.head? = some ']' then
            .ok (.list [], ⟨r₁.tail, by simp only [List.length_tail, List.length_cons]; omega⟩)
          else
            match elements room [] r₁ with
            | .error stop => .error stop
            | .ok (items, ⟨rest, h⟩) =>
              .ok (.list items, ⟨rest, by simp only [List.length_cons]; omega⟩)
    else atom (c :: r)
  termination_by (s.length, 0)
  decreasing_by all_goals simp only [List.length_cons]; omega

def members (room : Nat) (read : List (String × Json)) (s : List Char) :
    Except Stop (List (String × Json) × Rest s) :=
  match s with
  | [] => .error (.problem .propertyName 0)
  | quote :: r =>
    if quote = '"' then
      match stringBody (r.length + 1) [] r with
      | .error stop => .error stop
      | .ok (name, ⟨r₁, h₁⟩) =>
        match skipSpace r₁ with
        | ⟨r₂, h₂⟩ =>
          if r₂.head? = some ':' then
            match next r₂ with
            | ⟨r₃, h₃⟩ =>
              match value room r₃ with
              | .error stop => .error stop
              | .ok (found, ⟨r₄, h₄⟩) =>
                let read := Entries.put name found read
                match skipSpace r₄ with
                | ⟨r₅, h₅⟩ =>
                  if r₅.head? = some '}' then
                    .ok (read, ⟨r₅.tail, by
                      simp only [List.length_tail, List.length_cons]; omega⟩)
                  else if r₅.head? = some ',' then
                    match next r₅ with
                    | ⟨r₆, h₆⟩ =>
                      match members room read r₆ with
                      | .error stop => .error stop
                      | .ok (fields, ⟨rest, h₇⟩) =>
                        .ok (fields, ⟨rest, by simp only [List.length_cons]; omega⟩)
                  else .error (.problem .comma r₅.length)
          else .error (.problem .colon r₂.length)
    else .error (.problem .propertyName (r.length + 1))
  termination_by (s.length, 1)
  decreasing_by all_goals simp only [List.length_cons]; omega

/-- The items of a list from a value on, behind those in `read`, which are listed last first. -/
def elements (room : Nat) (read : List Json) (s : List Char) :
    Except Stop (List Json × Rest s) :=
  match value room s with
  | .error stop => .error stop
  | .ok (found, ⟨r₁, h₁⟩) =>
    match skipSpace r₁ with
    | ⟨r₂, h₂⟩ =>
      if r₂.head? = some ']' then
        .ok ((found :: read).reverse, ⟨r₂.tail, by simp only [List.length_tail]; omega⟩)
      else if r₂.head? = some ',' then
        match next r₂ with
        | ⟨r₃, h₃⟩ =>
          match elements room (found :: read) r₃ with
          | .error stop => .error stop
          | .ok (items, ⟨rest, h₄⟩) => .ok (items, ⟨rest, by omega⟩)
      else .error (.problem .comma r₂.length)
  termination_by (s.length, 1)
  decreasing_by all_goals omega

end

def parseText (text : List Char) : Except Stop Json :=
  match value nestingLimit (skipSpace text) with
  | .error stop => .error stop
  | .ok (found, rest) =>
    match (skipSpace rest).val with
    | [] => .ok found
    | left => .error (.problem .extra left.length)

end ApiClientGen.Json
