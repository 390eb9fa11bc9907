import MiniJava.Check

/-!
# Sessions

Several programs collected into one hierarchy and checked against it, with one report for all.
-/

namespace MiniJava

structure Session where
  hierarchy : Hierarchy := .empty
  report : Report := {}

namespace Session

/-- Collects a program's declarations on top of the earlier ones. -/
def collect (s : Session) (p : Program) : Session × List Diagnostic :=
  let r := s.hierarchy.collect p
  (⟨r.1, s.report.addAll r.2⟩, r.2)

/-- Collects a program's declarations, unless its main class cannot be made. -/
def build (s : Session) (p : Program) : Except Fault (Session × List Diagnostic) :=
  (s.hierarchy.build p).map fun r => (⟨r.1, s.report.addAll r.2⟩, r.2)

/-- Collects programs one after another. -/
def collectAll (s : Session) (ps : List Program) : Session :=
  ps.foldl (fun s p => (s.collect p).1) s

/-- Collects programs one after another, up to the first that has a fault. -/
def buildAll (s : Session) (ps : List Program) : Except Fault Session :=
  ps.foldlM (fun s p => (s.build p).map Prod.fst) s

/-- What a check leaves behind, be it that it ends with a fault: its diagnostics are added. -/
def afterCheck (s : Session) (p : Program) : Session :=
  { s with report := s.report.addAll (p.checkAgainst s.hierarchy).diagnostics }

/-- Checks a program against what was collected so far. -/
def check (s : Session) (p : Program) : Except Fault (Session × List Diagnostic) :=
  let trail := p.checkAgainst s.hierarchy
  trail.outcome.map fun _ => (s.afterCheck p, trail.diagnostics)

def close (s : Session) : Except Rejection Unit := s.report.close

theorem build_eq_ok (s : Session) (p : Program) : s.build p = .ok (s.collect p) := by
  rw [build, Hierarchy.build_eq_ok]
  rfl

theorem buildAll_eq_ok (s : Session) (ps : List Program) :
    s.buildAll ps = .ok (s.collectAll ps) := by
  induction ps generalizing s with
  | nil => rfl
  | cons p ps ih =>
    have hfirst : (s.build p).map Prod.fst = .ok (s.collect p).1 := by
      rw [build_eq_ok]
      rfl
    rw [buildAll, List.foldlM_cons, hfirst]
    exact ih _

end Session

end MiniJava
