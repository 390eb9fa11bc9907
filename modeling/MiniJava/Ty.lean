/-!
# Types
-/

namespace MiniJava

/-- The types of expressions and variables. `error` is the type of an expression that did not
check; `void` and `stringArray` occur only in the signature of the main method. -/
inductive Ty where
  | int
  | boolean
  | intArray
  | stringArray
  | void
  | object (className : String)
  | error
deriving DecidableEq, Repr, Inhabited

namespace Ty

/-- The written form of a type. It does not determine the type: a class may be called `int`. -/
def name : Ty → String
  | int => "int"
  | boolean => "boolean"
  | intArray => "int[]"
  | stringArray => "String[]"
  | void => "void"
  | object className => className
  | error => "<error>"

def isObject : Ty → Bool
  | object _ => true
  | _ => false

def isError : Ty → Bool
  | error => true
  | _ => false

@[simp] theorem isError_iff {t : Ty} : t.isError = true ↔ t = error := by
  cases t <;> simp [isError]

/-- The written form of what a table stores for a name, which may be no type at all. -/
def slotName : Option Ty → String
  | none => "None"
  | some t => t.name

end Ty

end MiniJava
