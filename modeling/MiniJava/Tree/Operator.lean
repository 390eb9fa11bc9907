import MiniJava.ReadFault
import MiniJava.Ty

/-!
# Operators
-/

namespace MiniJava

inductive UnaryOp where
  | not
deriving DecidableEq, Repr

inductive BinaryOp where
  | and
  | less
  | add
  | sub
  | mul
deriving DecidableEq, Repr

namespace UnaryOp

def symbol : UnaryOp → String
  | not => "!"

def all : List UnaryOp := [not]

/-- The operator with the given symbol. -/
def read (symbol : String) : Except ReadFault UnaryOp :=
  match all.find? fun op => op.symbol = symbol with
  | some op => .ok op
  | none => .error (.unaryOp symbol)

end UnaryOp

namespace BinaryOp

def symbol : BinaryOp → String
  | and => "&&"
  | less => "<"
  | add => "+"
  | sub => "-"
  | mul => "*"

def all : List BinaryOp := [and, less, add, sub, mul]

/-- The operator with the given symbol. -/
def read (symbol : String) : Except ReadFault BinaryOp :=
  match all.find? fun op => op.symbol = symbol with
  | some op => .ok op
  | none => .error (.binaryOp symbol)

/-- The type of both operands. -/
def operand : BinaryOp → Ty
  | and => .boolean
  | less | add | sub | mul => .int

/-- The type of the result. -/
def result : BinaryOp → Ty
  | and | less => .boolean
  | add | sub | mul => .int

end BinaryOp

end MiniJava
