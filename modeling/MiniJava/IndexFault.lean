/-!
# Positions out of range
-/

namespace MiniJava

/-- The refusal of a position. The way it is told depends on what was asked: something with a fixed
number of parts, a sequence, or a node that never has children. A position that is no signed 64-bit
number is refused as such. -/
inductive IndexFault where
  | record
  | sequence
  | leaf (index : Int) (name : String)
  | tooWide
deriving DecidableEq, Repr

def IndexFault.message : IndexFault → String
  | record => "tuple index out of range"
  | sequence => "list index out of range"
  | leaf index name => "you are trying to index the #" ++ toString index ++ " child of node " ++
      name ++ ", which has only 0 children"
  | tooWide => "cannot fit 'int' into an index-sized integer"

/-- Whether a position is a signed 64-bit number. -/
def IndexFault.isWord (index : Int) : Bool :=
  Int64.minValue.toInt ≤ index && index ≤ Int64.maxValue.toInt

end MiniJava
