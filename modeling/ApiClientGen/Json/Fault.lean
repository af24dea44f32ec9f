import ApiClientGen.Encoding.Fault

/-!
The ways in which a document fails to be read, with the place of a fault in its text.
-/
namespace ApiClientGen.Json

inductive Problem
  | value
  | propertyName
  | colon
  | comma
  | extra
  | unterminated
  | control
  | escape
  | unicodeEscape
  deriving DecidableEq, Repr

def Problem.message : Problem → String
  | .value => "Expecting value"
  | .propertyName => "Expecting property name enclosed in double quotes"
  | .colon => "Expecting ':' delimiter"
  | .comma => "Expecting ',' delimiter"
  | .extra => "Extra data"
  | .unterminated => "Unterminated string starting at"
  | .control => "Invalid control character at"
  | .escape => "Invalid \\escape"
  | .unicodeEscape => "Invalid \\uXXXX escape"

/-- A place in a text: the number of characters before it, and its line and column from one on. -/
structure Position where
  index : Nat
  line : Nat
  column : Nat
  deriving DecidableEq, Repr

/-- The place with `index` characters before it. Only a line feed starts a line. -/
def Position.at (text : List Char) (index : Nat) : Position :=
  let before := text.take index
  ⟨index, before.count '\n' + 1, (before.reverse.takeWhile (· ≠ '\n')).length + 1⟩

def digitLimit : Nat := 4300

/-- The number of lists and objects that may be open at once. Each takes one of the thousand calls
that the interpreter allows within each other, and a run that comes to read a document has taken
the others. -/
def nestingLimit : Nat := 986

inductive Nest
  | list
  | object
  deriving DecidableEq, Repr

def Nest.name : Nest → String
  | .list => "array"
  | .object => "object"

inductive Fault
  | encoding (fault : Encoding.Fault)
  | malformed (problem : Problem) (position : Position)
  | longInteger (digits : Nat)
  | tooDeep (nest : Nest)
  deriving DecidableEq, Repr

def Fault.message : Fault → String
  | .encoding fault => fault.message
  | .malformed problem position =>
    s!"{problem.message}: line {position.line} column {position.column} (char {position.index})"
  | .longInteger digits =>
    s!"Exceeds the limit ({digitLimit} digits) for integer string conversion: " ++
      s!"value has {digits} digits; use sys.set_int_max_str_digits() to increase the limit"
  | .tooDeep nest =>
    s!"maximum recursion depth exceeded while decoding a JSON {nest.name} from a unicode string"

end ApiClientGen.Json
