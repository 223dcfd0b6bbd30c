import AsmLens.Assoc
import AsmLens.Number.Binary64
import AsmLens.Value.Moment

namespace AsmLens

inductive Value where
  | null
  | bool (b : Bool)
  | int (n : Int)
  | float (x : Binary64)
  | text (s : String)
  | moment (m : Moment)
  | array (items : List Value)
  | table (entries : List (String × Value))
  deriving Repr, BEq

abbrev Entries := Assoc String Value

namespace Value

def isGiven : Value → Bool
  | .null => false
  | .bool b => b
  | .int n => n != 0
  | .float x => !x.isZero
  | .text s => s != ""
  | .moment _ => true
  | .array items => !items.isEmpty
  | .table entries => !entries.isEmpty

end Value

end AsmLens
