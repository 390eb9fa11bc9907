import MiniJava.Fault
import MiniJava.Trace

/-!
# Trails

A check that may end with a fault. What was done before the fault stays done, so the events stand
beside the outcome, whatever it is.
-/

namespace MiniJava

structure Trail (α : Type) where
  events : List Event
  outcome : Except Fault α

namespace Trail

variable {α β : Type}

/-- Goes on from the outcome, unless that is a fault. -/
def andThen (t : Trail α) (next : α → Trail β) : Trail β :=
  match t.outcome with
  | .ok a =>
    let rest := next a
    ⟨t.events ++ rest.events, rest.outcome⟩
  | .error f => ⟨t.events, .error f⟩

instance : Monad Trail where
  pure a := ⟨[], .ok a⟩
  bind := andThen

def tell (events : List Event) : Trail Unit := ⟨events, .ok ()⟩

def report (ds : List Diagnostic) : Trail Unit := tell (ds.map .reported)

def fail (f : Fault) : Trail α := ⟨[], .error f⟩

def diagnostics (t : Trail α) : List Diagnostic := MiniJava.diagnostics t.events

/-- The outcome with the events, or the fault alone. -/
def result (t : Trail α) : Except Fault (α × List Event) := t.outcome.map (·, t.events)

end Trail

end MiniJava
