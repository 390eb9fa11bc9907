import MiniJava.ReadFault
import MiniJava.Text.Joined
import MiniJava.Ty

/-!
# Diagnostics

What can be wrong with a program, where it is wrong, and how it is told. An `Issue` keeps the types
it speaks of; a `Finding` is the same as text.
-/

namespace MiniJava

/-- The kinds of issues. -/
inductive Kind where
  | duplicateDefinition
  | undefinedIdentifier
  | undefinedClass
  | undefinedMethod
  | arityMismatch
  | argumentTypeMismatch
  | typeMismatch
  | assignmentTypeMismatch
  | conditionTypeMismatch
  | invalidOverride
  | cyclicInheritance
deriving DecidableEq, Repr, Inhabited

namespace Kind

def all : List Kind :=
  [duplicateDefinition, undefinedIdentifier, undefinedClass, undefinedMethod, arityMismatch,
    argumentTypeMismatch, typeMismatch, assignmentTypeMismatch, conditionTypeMismatch,
    invalidOverride, cyclicInheritance]

def phrase : Kind → String
  | duplicateDefinition => "duplicate definition"
  | undefinedIdentifier => "undefined identifier"
  | undefinedClass => "undefined class"
  | undefinedMethod => "undefined method"
  | arityMismatch => "wrong number of arguments"
  | argumentTypeMismatch => "argument type mismatch"
  | typeMismatch => "type mismatch"
  | assignmentTypeMismatch => "assignment type mismatch"
  | conditionTypeMismatch => "condition is not boolean"
  | invalidOverride => "invalid override"
  | cyclicInheritance => "cyclic inheritance"

/-- The kind with the given phrase. -/
def read (phrase : String) : Except ReadFault Kind :=
  match all.find? fun k => k.phrase = phrase with
  | some k => .ok k
  | none => .error (.kind phrase)

end Kind

/-- What is wrong. `notAnObject` is the mismatch of a call's receiver. -/
inductive Issue where
  | duplicateDefinition (name : String)
  | undefinedIdentifier (name : String)
  | undefinedClass (name : String)
  | undefinedMethod (className method : String)
  | arityMismatch (method : String) (expected actual : Nat)
  | argumentTypeMismatch (method : String) (position : Nat) (expected actual : Ty)
  | typeMismatch (expected actual : Ty)
  | notAnObject (actual : Ty)
  | assignmentTypeMismatch (name : String) (expected actual : Ty)
  | conditionTypeMismatch (actual : Ty)
  | invalidOverride (className method : String)
  | cyclicInheritance (className : String)
deriving DecidableEq, Repr

namespace Issue

def kind : Issue → Kind
  | duplicateDefinition _ => .duplicateDefinition
  | undefinedIdentifier _ => .undefinedIdentifier
  | undefinedClass _ => .undefinedClass
  | undefinedMethod _ _ => .undefinedMethod
  | arityMismatch _ _ _ => .arityMismatch
  | argumentTypeMismatch _ _ _ _ => .argumentTypeMismatch
  | typeMismatch _ _ => .typeMismatch
  | notAnObject _ => .typeMismatch
  | assignmentTypeMismatch _ _ _ => .assignmentTypeMismatch
  | conditionTypeMismatch _ => .conditionTypeMismatch
  | invalidOverride _ _ => .invalidOverride
  | cyclicInheritance _ => .cyclicInheritance

/-- The names, numbers and types an issue is about, in the order in which they are told. -/
def subjects : Issue → List String
  | duplicateDefinition name => [name]
  | undefinedIdentifier name => [name]
  | undefinedClass name => [name]
  | undefinedMethod className method => [className, method]
  | arityMismatch method expected actual => [method, toString expected, toString actual]
  | argumentTypeMismatch method position expected actual =>
    [method, toString position, expected.name, actual.name]
  | typeMismatch expected actual => [expected.name, actual.name]
  | notAnObject actual => ["object", actual.name]
  | assignmentTypeMismatch name expected actual => [name, expected.name, actual.name]
  | conditionTypeMismatch actual => [actual.name]
  | invalidOverride className method => [className, method]
  | cyclicInheritance className => [className]

end Issue

/-- An issue as it is told: kind, subjects and, if known, the line. -/
structure Finding where
  kind : Kind
  subjects : List String
  line : Option Int
deriving DecidableEq, Repr, Inhabited

def Finding.text (f : Finding) : String :=
  let place := match f.line with
    | some n => "line " ++ toString n ++ ": "
    | none => ""
  place ++ f.kind.phrase ++ ": " ++ Text.joined ", " f.subjects

/-- An issue and its place. -/
structure Diagnostic where
  issue : Issue
  line : Option Int
deriving DecidableEq, Repr

def Diagnostic.finding (d : Diagnostic) : Finding := ⟨d.issue.kind, d.issue.subjects, d.line⟩

end MiniJava
