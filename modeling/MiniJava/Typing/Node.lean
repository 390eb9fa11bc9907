import MiniJava.Tree.Unhandled
import MiniJava.Typing.Decl

/-!
# Checking any node

Any node can be checked in a context. Statements, expressions and methods leave the context as it
was; a class leaves no scope open; a whole program and its main class have contexts of their own.
-/

namespace MiniJava

/-- What a node yields: a type for an expression, types for a list of them, else nothing. -/
inductive Outcome where
  | nothing
  | type (t : Ty)
  | types (ts : List Ty)
deriving DecidableEq, Repr

structure Visit where
  outcome : Outcome
  context : Context
  trace : List Event

/-- The outcome of a list of expressions; that of the empty list is nothing. -/
def Outcome.ofTypes : List Ty → Outcome
  | [] => nothing
  | ts => types ts

/-- Checks a node in a context. -/
def Node.check (h : Hierarchy) (ctx : Context) (n : Node) : Except Fault Visit :=
  match n with
  | .program p => do
    let (_, events) ← (p.checkAgainst h).result
    return ⟨.nothing, ctx, events⟩
  | .mainClass m => do
    let (_, events) ← (m.check h).result
    return ⟨.nothing, ctx, events⟩
  | .classDecl d => do
    let (ctx, events) ← (d.check h ctx).result
    return ⟨.nothing, ctx, events⟩
  | .classes ds _ => do
    let (ctx, events) ← (ClassDecl.checkAll h ctx ds).result
    return ⟨.nothing, ctx, events⟩
  | .methodDecl d => do
    let (ctx, events) ← (d.check h ctx).result
    return ⟨.nothing, ctx, events⟩
  | .methods ds _ => do
    let (ctx, events) ← (MethodDecl.checkAll h ctx ds).result
    return ⟨.nothing, ctx, events⟩
  | .stmt s => .ok ⟨.nothing, ctx, (s.check h ctx).map .reported⟩
  | .stmts ss _ => .ok ⟨.nothing, ctx, (Stmt.checkAll h ctx ss).map .reported⟩
  | .expr e =>
    let r := e.infer h ctx
    .ok ⟨.type r.1, ctx, r.2.map .reported⟩
  | .exprs es _ =>
    let rs := Expr.inferAll h ctx es
    .ok ⟨.ofTypes (rs.map Prod.fst), ctx, (rs.flatMap Prod.snd).map .reported⟩
  | .varDecl _ | .vars _ _ | .typeLiteral _ => do
    n.refuse .typing
    return ⟨.nothing, ctx, []⟩

end MiniJava
