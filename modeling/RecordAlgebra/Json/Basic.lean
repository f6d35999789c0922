import RecordAlgebra.Fields

/-!
# JSON documents

A number is an integer or a double, and the two are different documents even
where their values agree. Objects keep their members in order.
-/

namespace RecordAlgebra

inductive Json where
  | null
  | bool (b : Bool)
  | int (n : Int)
  | float (x : Float)
  | text (s : String)
  | array (elements : List Json)
  | object (members : List (String × Json))
  deriving Inhabited

namespace Json

/-- The member of this name, if the document is an object that has one. -/
def member? (name : String) : Json → Option Json
  | .object members => Fields.get? members name
  | _ => none

end Json

end RecordAlgebra
