import MiniJava.Diagnostic

/-!
# Traces

What happens while a program is checked, step by step. The diagnostics are part of the trace.
-/

namespace MiniJava

inductive Event where
  | reported (d : Diagnostic)
  | collected (classNames : List String)
  | checkingClass (name : String)
  | skippedClass (name : String)
  | skippedMethod (className method : String)
  | passDone (pass findings : Nat)
deriving DecidableEq, Repr

/-- The part of the checker that an event belongs to. -/
inductive Component where
  | collection
  | typing
  | control
  | report
deriving DecidableEq, Repr

namespace Event

def component : Event → Component
  | reported _ => .report
  | collected _ => .collection
  | checkingClass _ | skippedClass _ | skippedMethod _ _ => .typing
  | passDone _ _ => .control

def message : Event → String
  | reported d => "reported " ++ d.finding.text
  | collected names => "class table built: " ++ Text.joined ", " names
  | checkingClass name => "checking class " ++ name
  | skippedClass name => "skipping duplicate class " ++ name
  | skippedMethod className method => "skipping duplicate method " ++ className ++ "." ++ method
  | passDone pass findings =>
    "pass " ++ toString pass ++ " done, " ++ toString findings ++ " error(s)"

def diagnostic? : Event → Option Diagnostic
  | reported d => some d
  | _ => none

end Event

/-- The diagnostics of a trace. -/
def diagnostics (trace : List Event) : List Diagnostic := trace.filterMap (·.diagnostic?)

@[simp] theorem diagnostics_nil : diagnostics [] = [] := rfl

@[simp] theorem diagnostics_append (s t : List Event) :
    diagnostics (s ++ t) = diagnostics s ++ diagnostics t := by
  simp [diagnostics]

@[simp] theorem diagnostics_map_reported (ds : List Diagnostic) :
    diagnostics (ds.map .reported) = ds := by
  rw [diagnostics, List.filterMap_map]
  exact List.filterMap_some

end MiniJava
