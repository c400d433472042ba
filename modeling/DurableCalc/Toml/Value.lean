import DurableCalc.Binary64

namespace DurableCalc.Toml

/-- How a table came into being, which decides who may still add to it: `implied` by the header of
a table inside it, `dotted` by a key with dots, `headed` by a header of its own, or written
`inline`. -/
inductive Origin where
  | implied
  | dotted
  | headed
  | inline
  deriving DecidableEq, Repr

inductive Value where
  | string (text : String)
  | integer (n : Int64)
  | float (x : Binary64)
  | boolean (b : Bool)
  | datetime (text : String)
  | array (items : List Value)
  | table (origin : Origin) (fields : List (String × Value))
  | tables (items : List (List (String × Value)))

abbrev Fields := List (String × Value)

namespace Fields

def get? (key : String) : Fields → Option Value
  | [] => none
  | (k, v) :: fs => if k = key then some v else get? key fs

def erase (key : String) : Fields → Fields
  | [] => []
  | (k, v) :: fs => if k = key then fs else (k, v) :: erase key fs

def set (key : String) (value : Value) : Fields → Fields
  | [] => []
  | (k, v) :: fs => if k = key then (k, value) :: fs else (k, v) :: set key value fs

def add (key : String) (value : Value) (fs : Fields) : Fields :=
  fs ++ [(key, value)]

end Fields

end DurableCalc.Toml
