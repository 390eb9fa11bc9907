import MiniJava.Scope.Basic
import MiniJava.Tree.Basic

/-!
# Classes and methods as declared

What a declaration says of a class or a method: names and types, without any code.
-/

namespace MiniJava

/-- Where a class or a method comes from: a declaration with its number and line, or no declaration
at all. -/
inductive Origin where
  | declared (id : Nat) (line : Line)
  | synthetic (number : Nat)
deriving DecidableEq, Repr, Inhabited

namespace Origin

/-- Whether this is the declaration with the given number. -/
def isDecl (o : Origin) (id : Nat) : Bool :=
  match o with
  | declared own _ => own == id
  | synthetic _ => false

/-- The line of the declaration, or `other` where there is no declaration. -/
def lineOr (o : Origin) (other : Line) : Line :=
  match o with
  | declared _ line => line
  | synthetic _ => other

end Origin

structure MethodInfo where
  name : String
  returnType : Ty
  origin : Origin
  params : Bindings Ty := .empty
  locals : Bindings Ty := .empty
deriving Inhabited

namespace MethodInfo

/-- The scope of the body: the locals inside the parameters. -/
def scope (m : MethodInfo) : Scope Ty := ⟨m.locals, [m.params]⟩

def paramTypes (m : MethodInfo) : List Ty := m.params.values

def agreesWith (m n : MethodInfo) : Bool :=
  m.paramTypes = n.paramTypes && m.returnType = n.returnType

/-- Name, parameter types and return type as text. -/
def signature (m : MethodInfo) : String :=
  m.name ++ "(" ++ Text.joined ", " (m.paramTypes.map (·.name)) ++ "): " ++ m.returnType.name

end MethodInfo

structure ClassInfo where
  name : String
  superName : Option String
  origin : Origin
  fields : Bindings Ty := .empty
  methods : Bindings MethodInfo := .empty
deriving Inhabited

/-- The fields of a class and of the classes above it, one scope a class, the farthest first. -/
def ClassInfo.fieldsBelow (c : ClassInfo) (above : List ClassInfo) : List (Scope Ty) :=
  (c :: above).reverse.map fun owner => ⟨owner.fields, []⟩

/-- Name and superclass as text. -/
def ClassInfo.header (c : ClassInfo) : String :=
  match c.superName with
  | none => "class " ++ c.name
  | some s => "class " ++ c.name ++ " extends " ++ s

end MiniJava
