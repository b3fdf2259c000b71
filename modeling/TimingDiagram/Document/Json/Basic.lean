namespace TimingDiagram.Document

namespace Json

-- A number of a document is kept whole if it is written without point and exponent and fits into
-- 64 bits, with or without a sign.
inductive Number where
  | integer (n : Int)
  | float (x : Float)
deriving Repr

def Number.toFloat : Number → Float
  | .integer n => Float.ofInt n
  | .float x => x

end Json

-- A document value. The members of an object stand in the order of their names, each name once.
inductive Json where
  | null
  | bool (b : Bool)
  | number (n : Json.Number)
  | string (s : String)
  | array (items : List Json)
  | object (members : List (String × Json))
deriving Repr

namespace Json

-- Puts a member in its place; a name that is there already takes the new value.
def insert (name : String) (value : Json) : List (String × Json) → List (String × Json)
  | [] => [(name, value)]
  | (n, v) :: rest =>
    if name < n then (name, value) :: (n, v) :: rest
    else if name = n then (n, value) :: rest
    else (n, v) :: insert name value rest

end Json

end TimingDiagram.Document
