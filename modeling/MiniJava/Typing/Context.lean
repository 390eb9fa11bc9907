import MiniJava.Diagnostic
import MiniJava.Hierarchy.Basic
import MiniJava.Scope.Env

/-!
# Typing contexts
-/

namespace MiniJava

/-- What is known inside a class: the class itself and the open scopes. -/
structure Context where
  owner : ClassInfo
  env : Env Ty := .empty
deriving Inhabited

namespace Context

def enter (ctx : Context) (s : Scope Ty) : Context := { ctx with env := ctx.env.enter s }

def enterAll (ctx : Context) (ss : List (Scope Ty)) : Context :=
  { ctx with env := ctx.env.enterAll ss }

/-- The type of a variable, or the finding that there is none of that name. -/
def typeOf (ctx : Context) (h : Hierarchy) (name : String) (line : Line) :
    Except Diagnostic Ty :=
  match ctx.env.resolve name with
  | some t => .ok (h.settled t)
  | none => .error ⟨.undefinedIdentifier name, line⟩

end Context

/-- The diagnostics of an expression that is to have type `expected`, given its own type and
diagnostics. -/
def expecting (h : Hierarchy) (expected : Ty) (line : Line) (r : Ty × List Diagnostic) :
    List Diagnostic :=
  r.2 ++ if h.fits r.1 expected then [] else [⟨.typeMismatch expected r.1, line⟩]

end MiniJava
