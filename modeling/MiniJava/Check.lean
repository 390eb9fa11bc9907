import MiniJava.Report
import MiniJava.Typing.Decl

/-!
# Checking programs

A program is checked in two passes: its declarations are collected, then its code is checked against
them. It is accepted if neither pass finds anything.
-/

namespace MiniJava

/-- A program that was checked, with the classes it declares. -/
structure Checked where
  program : Program
  hierarchy : Hierarchy

namespace Checked

def main? (c : Checked) : Option ClassInfo := c.hierarchy.get? c.program.main.name

def classes (c : Checked) : List ClassInfo := c.hierarchy.own.values

end Checked

/-- Why a program is not accepted. -/
inductive Refusal where
  | findings (ds : List Diagnostic)
  | fault (f : Fault)
deriving DecidableEq, Repr

/-- The diagnostics as the reason of a refusal. -/
def Rejection.ofDiagnostics (ds : List Diagnostic) : Rejection := ⟨ds.map (·.finding)⟩

/-- A check with all its steps. -/
structure Run where
  trace : List Event
  result : Except Refusal Checked

/-- Checks a program and keeps the trace. -/
def Program.run (p : Program) : Run :=
  match Hierarchy.build .empty p with
  | .error f => ⟨[], .error (.fault f)⟩
  | .ok c =>
    let first := c.2.map .reported ++ [.collected c.1.own.names, .passDone 1 c.2.length]
    let second := p.checkAgainst c.1
    match second.outcome with
    | .error f => ⟨first ++ second.events, .error (.fault f)⟩
    | .ok () =>
      let ds := c.2 ++ second.diagnostics
      ⟨first ++ second.events ++ [.passDone 2 ds.length],
        if ds.isEmpty then .ok ⟨p, c.1⟩ else .error (.findings ds)⟩

/-- Checks a program. -/
def Program.check (p : Program) : Except Refusal Checked := p.run.result

end MiniJava
