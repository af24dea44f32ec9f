import ApiClientGen.Number.Binary64

/-!
Document values. Integers are exact and of any size, other numbers are binary; the fields of an
object keep the order in which their names were first met.
-/
namespace ApiClientGen

inductive Json
  | null
  | bool (value : Bool)
  | int (value : Int)
  | float (value : Binary64)
  | string (value : String)
  | list (items : List Json)
  | object (fields : List (String × Json))
  deriving Inhabited, Repr

end ApiClientGen
