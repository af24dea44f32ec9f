/-!
The characters of plain identifiers: ASCII letters, digits, the underscore and the dollar sign,
the first of them not a digit.
-/
namespace ApiClientGen.Naming

def isIdentifierChar (c : Char) : Bool := c.isAlphanum || c == '_' || c == '$'

def isIdentifierStart (c : Char) : Bool := c.isAlpha || c == '_' || c == '$'

def isIdentifier : List Char → Bool
  | [] => false
  | c :: rest => isIdentifierStart c && rest.all isIdentifierChar

end ApiClientGen.Naming
