import MiniJava.Diagnostic
import MiniJava.Fault
import MiniJava.Hierarchy.Basic

/-!
# Collecting declarations

The classes, fields, methods, parameters and locals that a program declares. The first declaration
of a name wins; each later one is a finding, and its own members are still looked through.
-/

namespace MiniJava

/-- Takes the items in order, each with what the ones before left, and keeps all diagnostics. -/
def gather {σ δ : Type} (step : σ → δ → σ × List Diagnostic) (s : σ) :
    List δ → σ × List Diagnostic
  | [] => (s, [])
  | d :: ds =>
    let r := step s d
    let rest := gather step r.1 ds
    (rest.1, r.2 ++ rest.2)

namespace Bindings

variable {α : Type}

/-- Binds a name, or says at `line` that it is bound already. -/
def declare (b : Bindings α) (name : String) (value : α) (line : Line) :
    Bindings α × List Diagnostic :=
  match b.put name value with
  | .ok b => (b, [])
  | .error d => (b, [⟨.duplicateDefinition d.name, line⟩])

def declareVar (b : Bindings Ty) (d : VarDecl) : Bindings Ty × List Diagnostic :=
  b.declare d.name d.ty d.line

/-- Declares a local variable, which may not be called like a parameter. -/
def declareLocal (params b : Bindings Ty) (d : VarDecl) : Bindings Ty × List Diagnostic :=
  if params.contains d.name then (b, [⟨.duplicateDefinition d.name, d.line⟩])
  else b.declareVar d

end Bindings

def MethodDecl.origin (d : MethodDecl) : Origin := .declared d.id d.line

/-- What a method declaration says. -/
def MethodDecl.info (d : MethodDecl) : MethodInfo × List Diagnostic :=
  let params := gather Bindings.declareVar .empty d.formals
  let locals := gather (Bindings.declareLocal params.1) .empty d.locals
  (⟨d.name, d.returnType.ty, d.origin, params.1, locals.1⟩, params.2 ++ locals.2)

def Bindings.declareMethod (b : Bindings MethodInfo) (d : MethodDecl) :
    Bindings MethodInfo × List Diagnostic :=
  let m := d.info
  let r := b.declare d.name m.1 d.line
  (r.1, r.2 ++ m.2)

/-- What a class declaration says. -/
def ClassDecl.info (d : ClassDecl) : ClassInfo × List Diagnostic :=
  let fields := gather Bindings.declareVar .empty d.fields
  let methods := gather Bindings.declareMethod .empty d.methods
  (⟨d.name, d.superName, .declared d.id d.line, fields.1, methods.1⟩, fields.2 ++ methods.2)

/-- The name of the method that a program starts with. -/
def mainMethod : String := "main"

/-- The main class has one method, from an array of strings to nothing. -/
def MainClass.info (m : MainClass) : ClassInfo :=
  { name := m.name
    superName := none
    origin := .synthetic 0
    methods := ⟨[(mainMethod,
      { name := mainMethod
        returnType := .void
        origin := .synthetic 0
        params := ⟨[(m.arg, .stringArray)], by simp⟩ })], by simp⟩ }

/-- Makes what the main class says, name by name: the class gets its method, then the method its
parameter. -/
def MainClass.build (m : MainClass) : Except DuplicateName ClassInfo := do
  let main : MethodInfo := { name := mainMethod, returnType := .void, origin := .synthetic 0 }
  let methods ← Bindings.empty.put mainMethod main
  let params ← Bindings.empty.put m.arg Ty.stringArray
  return { name := m.name
           superName := none
           origin := .synthetic 0
           methods := methods.mapValues fun main => { main with params } }

/-- Both tables are new, so neither name is refused. -/
theorem MainClass.build_eq_ok (m : MainClass) : m.build = .ok m.info := by
  rw [build, Bindings.put_empty, Bindings.put_empty]
  rfl

namespace Hierarchy

/-- Declares a class in the innermost layer. -/
def declare (h : Hierarchy) (name : String) (c : ClassInfo) (line : Line) :
    Hierarchy × List Diagnostic :=
  let r := h.own.declare name c line
  ({ h with own := r.1 }, r.2)

def declareMain (h : Hierarchy) (m : MainClass) : Hierarchy × List Diagnostic :=
  h.declare m.name m.info m.line

def declareClass (h : Hierarchy) (d : ClassDecl) : Hierarchy × List Diagnostic :=
  let c := d.info
  let r := h.declare d.name c.1 d.line
  (r.1, r.2 ++ c.2)

/-- Adds the classes of a program: the main class, then the others in order. -/
def collect (h : Hierarchy) (p : Program) : Hierarchy × List Diagnostic :=
  let main := h.declareMain p.main
  let rest := gather declareClass main.1 p.classes
  (rest.1, main.2 ++ rest.2)

/-- Declares the main class, once that is made. -/
def buildMain (h : Hierarchy) (m : MainClass) : Except Fault (Hierarchy × List Diagnostic) := do
  let c ← m.build.mapError .duplicateName
  return h.declare m.name c m.line

/-- Adds the classes of a program, unless its main class cannot be made. -/
def build (h : Hierarchy) (p : Program) : Except Fault (Hierarchy × List Diagnostic) := do
  let main ← h.buildMain p.main
  let rest := gather declareClass main.1 p.classes
  return (rest.1, main.2 ++ rest.2)

theorem buildMain_eq_ok (h : Hierarchy) (m : MainClass) :
    h.buildMain m = .ok (h.declareMain m) := by
  rw [buildMain, m.build_eq_ok]
  rfl

theorem build_eq_ok (h : Hierarchy) (p : Program) : h.build p = .ok (h.collect p) := by
  rw [build, buildMain_eq_ok]
  rfl

end Hierarchy

end MiniJava
