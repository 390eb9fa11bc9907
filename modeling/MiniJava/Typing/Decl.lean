import MiniJava.Hierarchy.Collect
import MiniJava.Trail
import MiniJava.Typing.Stmt

/-!
# Checking declarations

Each class is checked in a context of its own: the fields of its ancestors and its own fields are
open, and around each method body also the method's parameters and locals. A declaration that is
not the one known by its name is skipped.
-/

namespace MiniJava

namespace Context

/-- Closes the innermost scope. -/
def leave (ctx : Context) : Trail Context :=
  match ctx.env.leave with
  | .ok env => pure { ctx with env }
  | .error f => .fail (.noOpenScope f)

/-- Closes all scopes. -/
def leaveAll (ctx : Context) : Trail Context :=
  match ctx.env.leaveMany ctx.env.depth with
  | .ok env => pure { ctx with env }
  | .error f => .fail (.noOpenScope f)

end Context

/-- The finding that a declared type names no class. -/
def Hierarchy.undeclared (h : Hierarchy) (t : Ty) (line : Line) : List Diagnostic :=
  match t with
  | .object c => if (h.get? c).isSome then [] else [⟨.undefinedClass c, line⟩]
  | _ => []

def VarDecl.undeclared (h : Hierarchy) (d : VarDecl) : List Diagnostic :=
  h.undeclared d.ty d.line

namespace MethodDecl

/-- The method known by the name of `d`, if it is the one that `d` declares. -/
def live? (d : MethodDecl) (owner : ClassInfo) : Option MethodInfo :=
  (owner.methods.get? d.name).filter (·.origin.isDecl d.id)

/-- The diagnostics of the types that a method declares. -/
def checkTypes (h : Hierarchy) (d : MethodDecl) (m : MethodInfo) : List Diagnostic :=
  h.undeclared m.returnType d.returnType.line ++
    (d.formals ++ d.locals).flatMap (·.undeclared h)

/-- The diagnostics of the body and of the returned value. -/
def checkBody (h : Hierarchy) (ctx : Context) (d : MethodDecl) (m : MethodInfo) :
    List Diagnostic :=
  Stmt.checkAll h ctx d.body ++ d.result.checkAs h ctx m.returnType

/-- Checks a method; afterwards the scopes are as before. -/
def check (h : Hierarchy) (ctx : Context) (d : MethodDecl) : Trail Context :=
  match d.live? ctx.owner with
  | none => do
    .tell [.skippedMethod ctx.owner.name d.name]
    return ctx
  | some m => do
    let inner := ctx.enter m.scope
    .report (d.checkTypes h m ++ d.checkBody h inner m)
    inner.leave

/-- Checks methods in order, each in the context that the one before left. -/
def checkAll (h : Hierarchy) (ctx : Context) : List MethodDecl → Trail Context
  | [] => return ctx
  | d :: ds => do checkAll h (← d.check h ctx) ds

end MethodDecl

namespace ClassDecl

/-- The finding that the superclass is unknown, or that it leads back to the class. -/
def checkSuper (h : Hierarchy) (d : ClassDecl) (owner : ClassInfo) : List Diagnostic :=
  match d.superName with
  | none => []
  | some s =>
    if (h.get? s).isNone then [⟨.undefinedClass s, d.line⟩]
    else if h.onCycle owner then [⟨.cyclicInheritance d.name, d.line⟩]
    else []

/-- The findings that a method does not agree with the one it overrides, the nearest of its name in
the classes above. -/
def overrideMismatches (d : ClassDecl) (owner : ClassInfo) (above : List ClassInfo) :
    List Diagnostic :=
  owner.methods.entries.flatMap fun e =>
    match above.findSome? (·.methods.get? e.1) with
    | none => []
    | some overridden =>
      if e.2.agreesWith overridden then []
      else [⟨.invalidOverride d.name e.1, e.2.origin.lineOr d.line⟩]

/-- Checks a class; no scope is open afterwards. -/
def check (h : Hierarchy) (ctx : Context) (d : ClassDecl) : Trail Context := do
  .tell [.checkingClass d.name]
  .report (d.checkSuper h ctx.owner ++ d.fields.flatMap (·.undeclared h))
  let above := h.ancestors ctx.owner
  let inner ← MethodDecl.checkAll h (ctx.enterAll (ctx.owner.fieldsBelow above)) d.methods
  let outer ← inner.leaveAll
  .report (d.overrideMismatches ctx.owner above)
  return outer

/-- Checks classes in order, each in the context that the one before left. -/
def checkAll (h : Hierarchy) (ctx : Context) : List ClassDecl → Trail Context
  | [] => return ctx
  | d :: ds => do checkAll h (← d.check h ctx) ds

/-- The class known by the name of `d`, if it is the one that `d` declares. -/
def live? (d : ClassDecl) (h : Hierarchy) : Option ClassInfo :=
  (h.get? d.name).filter (·.origin.isDecl d.id)

/-- Checks a class of a program, in a context of its own. -/
def checkFresh (h : Hierarchy) (d : ClassDecl) : Trail Unit :=
  match d.live? h with
  | none => .tell [.skippedClass d.name]
  | some owner => do
    let _ ← d.check h { owner }

end ClassDecl

/-- Checks the statement of the main class, in a context of its own. -/
def MainClass.check (h : Hierarchy) (m : MainClass) : Trail Unit := do
  let some owner := h.get? m.name | .fail .noMainMethod
  let some method := owner.methods.get? mainMethod | .fail .noMainMethod
  let inner : Context := Context.enter { owner } method.scope
  .report (m.body.check h inner)
  let _ ← inner.leave

/-- Checks a program against a hierarchy: the main class, then the others in order. -/
def Program.checkAgainst (h : Hierarchy) (p : Program) : Trail Unit := do
  p.main.check h
  p.classes.forM (·.checkFresh h)

end MiniJava
