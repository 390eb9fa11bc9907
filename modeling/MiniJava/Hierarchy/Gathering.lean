import MiniJava.Hierarchy.Collect
import MiniJava.Tree.Unhandled

/-!
# Collecting from any node

Classes go into the hierarchy. Fields, parameters and locals go into the bindings at hand, methods
into the class at hand.
-/

namespace MiniJava

/-- What the members met outside of a class go into. -/
inductive Holder where
  | vars (b : Bindings Ty)
  | members (c : ClassInfo)

structure Gathering where
  hierarchy : Hierarchy
  holder : Holder

namespace Gathering

def declareVars (g : Gathering) (ds : List VarDecl) :
    Except Fault (Gathering × List Diagnostic) :=
  match g.holder, ds with
  | _, [] => .ok (g, [])
  | .members _, _ :: _ => .error .noOwner
  | .vars b, ds =>
    let r := gather Bindings.declareVar b ds
    .ok ({ g with holder := .vars r.1 }, r.2)

def declareMethods (g : Gathering) (ds : List MethodDecl) :
    Except Fault (Gathering × List Diagnostic) :=
  match g.holder, ds with
  | _, [] => .ok (g, [])
  | .vars _, _ :: _ => .error .noOwner
  | .members c, ds =>
    let r := gather Bindings.declareMethod c.methods ds
    .ok ({ g with holder := .members { c with methods := r.1 } }, r.2)

def withHierarchy (g : Gathering) (r : Hierarchy × List Diagnostic) :
    Gathering × List Diagnostic :=
  ({ g with hierarchy := r.1 }, r.2)

/-- Collects what a node declares. -/
def collect (g : Gathering) (n : Node) : Except Fault (Gathering × List Diagnostic) :=
  match n with
  | .program p => (g.hierarchy.build p).map g.withHierarchy
  | .mainClass m => (g.hierarchy.buildMain m).map g.withHierarchy
  | .classDecl d => .ok (g.withHierarchy (g.hierarchy.declareClass d))
  | .classes ds _ => .ok (g.withHierarchy (gather Hierarchy.declareClass g.hierarchy ds))
  | .varDecl d => g.declareVars [d]
  | .vars ds _ => g.declareVars ds
  | .methodDecl d => g.declareMethods [d]
  | .methods ds _ => g.declareMethods ds
  | .stmt _ | .stmts _ _ | .expr _ | .exprs _ _ | .typeLiteral _ => do
    n.refuse .collection
    return (g, [])

end Gathering

end MiniJava
