import MiniJava.Scope.Env

/-!
# Faults

The ways in which a request cannot be carried out at all, as opposed to diagnostics about a program.
-/

namespace MiniJava

/-- What is asked to go over a tree: nothing in particular, the collection of declarations, or the
typing. -/
inductive Pass where
  | plain
  | collection
  | typing
deriving DecidableEq, Repr

def Pass.label : Pass → String
  | plain => "Visitor"
  | collection => "ClassTableBuilder"
  | typing => "Typer"

inductive Fault where
  /-- The pass does nothing with nodes of that name. -/
  | unhandled (pass : Pass) (node : String)
  /-- The main class is not known, or the class known by its name has no method `main`. -/
  | noMainMethod
  /-- A method or a variable is declared outside of anything that could hold it. -/
  | noOwner
  /-- A name is bound a second time where that is no finding. -/
  | duplicateName (d : DuplicateName)
  /-- More scopes were closed than opened. -/
  | noOpenScope (f : NoOpenScope)
deriving DecidableEq, Repr

/-- The text of a fault, for those that have one. -/
def Fault.message? : Fault → Option String
  | unhandled pass node => some (pass.label ++ " does not handle node kind " ++ node)
  | noMainMethod => none
  | noOwner => none
  | duplicateName d => some d.message
  | noOpenScope f => some f.message

end MiniJava
