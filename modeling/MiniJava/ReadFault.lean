import MiniJava.Text.Quoted

/-!
# Words that cannot be read
-/

namespace MiniJava

/-- A word that names nothing of its sort, or a numeral with too many digits. -/
inductive ReadFault where
  | numeral (word : String)
  | longNumeral (digits : Nat)
  | unaryOp (word : String)
  | binaryOp (word : String)
  | kind (word : String)
deriving DecidableEq, Repr

namespace ReadFault

/-- The quoted word of a numeral message is cut to this many characters. -/
def numeralWidth : Nat := 200

/-- A numeral has at most this many digits. -/
def digitLimit : Nat := 4300

def message : ReadFault → String
  | numeral word => "invalid literal for int() with base 10: " ++
      String.ofList ((Text.quoted word).toList.take numeralWidth)
  | longNumeral digits => "Exceeds the limit (" ++ toString digitLimit ++
      " digits) for integer string conversion: value has " ++ toString digits ++
      " digits; use sys.set_int_max_str_digits() to increase the limit"
  | unaryOp word => Text.quoted word ++ " is not a valid UnaryOp"
  | binaryOp word => Text.quoted word ++ " is not a valid BinaryOp"
  | kind word => Text.quoted word ++ " is not a valid ErrorKind"

end ReadFault

end MiniJava
