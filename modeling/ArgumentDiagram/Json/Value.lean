/-!
JSON values. The members of an object stand in the order of their names.
-/

namespace ArgumentDiagram.Json

inductive Value where
  | null
  | bool (b : Bool)
  | int (n : Int)
  | float (x : Float)
  | text (s : String)
  | array (items : List Value)
  | object (members : List (String × Value))

end ArgumentDiagram.Json
