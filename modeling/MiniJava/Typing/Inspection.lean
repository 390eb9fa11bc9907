import MiniJava.Report
import MiniJava.Typing.Node

/-!
# Inspections

A check that goes along with one stack of scopes and one report. Methods and classes open scopes on
the stack and close them again, every look-up reads the stack as it is then, and findings are added
to the report as they are made. A fault ends the inspection where it stands.
-/

namespace MiniJava

/-- Where an inspection stands: the class with the scopes open now, and the report so far. -/
structure Inspector where
  context : Context
  report : Report

abbrev Inspection := EStateM Fault Inspector

namespace Inspection

def tell (d : Diagnostic) : Inspection Unit :=
  modify fun s => { s with report := s.report.add d.finding }

def openScope (sc : Scope Ty) : Inspection Unit :=
  modify fun s => { s with context := s.context.enter sc }

def closeScope : Inspection Unit := do
  let s ← get
  match s.context.env.leave with
  | .ok env => set { s with context := { s.context with env } }
  | .error f => throw (.noOpenScope f)

def closeScopes : Nat → Inspection Unit
  | 0 => return
  | n + 1 => do
    closeScope
    closeScopes n

/-- Goes on in another context. -/
def moveTo (ctx : Context) : Inspection Unit :=
  modify fun s => { s with context := ctx }

/-- Inspects in a context of its own and comes back. -/
def within (ctx : Context) (visit : Inspection Unit) : Inspection Unit := do
  let outer := (← get).context
  moveTo ctx
  visit
  moveTo outer

/-- Looks a variable up in the scopes open now. -/
def lookup (h : Hierarchy) (name : String) (line : Line) : Inspection (Option Ty) := do
  match (← get).context.env.resolve name with
  | some t => return some (h.settled t)
  | none =>
    tell ⟨.undefinedIdentifier name, line⟩
    return none

/-- Tells a problem with what is of type `actual`, unless it fits. -/
def demand (h : Hierarchy) (actual expected : Ty) (problem : Diagnostic) : Inspection Unit :=
  if h.fits actual expected then return else tell problem

/-- Inspects what is to have type `expected`. -/
def expect (h : Hierarchy) (expected : Ty) (line : Line) (visit : Inspection Ty) :
    Inspection Unit := do
  let actual ← visit
  demand h actual expected ⟨.typeMismatch expected actual, line⟩

/-- Tells a type that names no class. -/
def declared (h : Hierarchy) (t : Ty) (line : Line) : Inspection Unit :=
  match t with
  | .object c => if (h.get? c).isSome then return else tell ⟨.undefinedClass c, line⟩
  | _ => return

def arguments (h : Hierarchy) (method : String) (pos : Nat) :
    List (Ty × Line) → List Ty → Inspection Unit
  | (actual, line) :: args, expected :: params => do
    demand h actual expected ⟨.argumentTypeMismatch method pos expected actual, line⟩
    arguments h method (pos + 1) args params
  | _, _ => return

/-- A call is given up at the first thing that is wrong with it, its arguments apart. -/
def dispatch (h : Hierarchy) (receiver : Ty) (receiverLine : Line) (method : String)
    (args : List (Ty × Line)) (line : Line) : Inspection Ty :=
  match h.settled receiver with
  | .error => return .error
  | .object className =>
    match h.findMethod? className method with
    | none => do
      tell ⟨.undefinedMethod className method, line⟩
      return .error
    | some m =>
      if m.params.size = args.length then do
        arguments h method 1 args m.paramTypes
        return h.settled m.returnType
      else do
        tell ⟨.arityMismatch method m.params.size args.length, line⟩
        return .error
  | other => do
    tell ⟨.notAnObject other, receiverLine⟩
    return .error

end Inspection

open Inspection

mutual

def Expr.inspect (h : Hierarchy) : Expr → Inspection Ty
  | .unary .not operand _ => do
    expect h .boolean operand.line (operand.inspect h)
    return .boolean
  | .binary op lhs rhs _ => do
    expect h op.operand lhs.line (lhs.inspect h)
    expect h op.operand rhs.line (rhs.inspect h)
    return op.result
  | .arrayLookup array index _ => do
    expect h .intArray array.line (array.inspect h)
    expect h .int index.line (index.inspect h)
    return .int
  | .arrayLength array _ => do
    expect h .intArray array.line (array.inspect h)
    return .int
  | .call receiver method args line => do
    let r ← receiver.inspect h
    let ts ← Expr.inspectAll h args
    dispatch h r receiver.line method (ts.zip (args.map Expr.line)) line
  | .newArray size _ => do
    expect h .int size.line (size.inspect h)
    return .intArray
  | .newObject className line =>
    if (h.get? className).isSome then return .object className
    else do
      tell ⟨.undefinedClass className, line⟩
      return .error
  | .this _ => return .object (← get).context.owner.name
  | .identifier name line => return (← lookup h name line).getD .error
  | .intLiteral _ _ => return .int
  | .boolLiteral _ _ => return .boolean
termination_by structural e => e

def Expr.inspectAll (h : Hierarchy) : List Expr → Inspection (List Ty)
  | [] => return []
  | e :: es => do
    let t ← e.inspect h
    let ts ← Expr.inspectAll h es
    return t :: ts
termination_by structural es => es

end

/-- Inspects an expression that is to have type `expected`. -/
def Expr.inspectAs (h : Hierarchy) (expected : Ty) (e : Expr) : Inspection Unit :=
  expect h expected e.line (e.inspect h)

def Expr.inspectAsCondition (h : Hierarchy) (e : Expr) : Inspection Unit := do
  let t ← e.inspect h
  demand h t .boolean ⟨.conditionTypeMismatch t, e.line⟩

mutual

def Stmt.inspect (h : Hierarchy) : Stmt → Inspection Unit
  | .block body _ => Stmt.inspectAll h body
  | .branch cond yes no _ => do
    cond.inspectAsCondition h
    yes.inspect h
    no.inspect h
  | .loop cond body _ => do
    cond.inspectAsCondition h
    body.inspect h
  | .print value _ => value.inspectAs h .int
  | .assign name value line => do
    let target? ← lookup h name line
    let t ← value.inspect h
    match target? with
    | some target => demand h t target ⟨.assignmentTypeMismatch name target t, line⟩
    | none => pure ()
  | .assignAt name index value line => do
    match ← lookup h name line with
    | some target => demand h target .intArray ⟨.typeMismatch .intArray target, line⟩
    | none => pure ()
    index.inspectAs h .int
    value.inspectAs h .int
termination_by structural s => s

def Stmt.inspectAll (h : Hierarchy) : List Stmt → Inspection Unit
  | [] => return
  | s :: ss => do
    s.inspect h
    Stmt.inspectAll h ss
termination_by structural ss => ss

end

namespace MethodDecl

/-- Inspects the types that a method declares and opens the scope of its body. -/
def inspectHead (h : Hierarchy) (d : MethodDecl) (m : MethodInfo) : Inspection Unit := do
  declared h m.returnType d.returnType.line
  (d.formals ++ d.locals).forM fun v => declared h v.ty v.line
  openScope m.scope

/-- Inspects the body and the returned value, in the scopes that are open. -/
def inspectBody (h : Hierarchy) (d : MethodDecl) (m : MethodInfo) : Inspection Unit := do
  Stmt.inspectAll h d.body
  d.result.inspectAs h m.returnType

def inspect (h : Hierarchy) (d : MethodDecl) : Inspection Unit := do
  match d.live? (← get).context.owner with
  | none => return
  | some m => do
    d.inspectHead h m
    d.inspectBody h m
    closeScope

end MethodDecl

namespace ClassDecl

def inspectSuper (h : Hierarchy) (d : ClassDecl) (owner : ClassInfo) : Inspection Unit :=
  match d.superName with
  | none => return
  | some s =>
    if (h.get? s).isNone then tell ⟨.undefinedClass s, d.line⟩
    else if h.onCycle owner then tell ⟨.cyclicInheritance d.name, d.line⟩
    else return

/-- Compares each method with the nearest of its name above. -/
def inspectOverrides (h : Hierarchy) (d : ClassDecl) (owner : ClassInfo) : Inspection Unit :=
  owner.methods.entries.forM fun e =>
    match (h.ancestors owner).findSome? (·.methods.get? e.1) with
    | none => return
    | some overridden =>
      if e.2.agreesWith overridden then return
      else tell ⟨.invalidOverride d.name e.1, e.2.origin.lineOr d.line⟩

/-- Inspects what stands before the methods and opens the scopes of the fields. -/
def inspectHead (h : Hierarchy) (d : ClassDecl) (owner : ClassInfo) : Inspection Unit := do
  d.inspectSuper h owner
  d.fields.forM fun v => declared h v.ty v.line
  (h.visibleFields owner).forM openScope

/-- Closes whatever is open, then compares the methods with those above. -/
def inspectTail (h : Hierarchy) (d : ClassDecl) (owner : ClassInfo) : Inspection Unit := do
  closeScopes (← get).context.env.depth
  d.inspectOverrides h owner

def inspect (h : Hierarchy) (d : ClassDecl) : Inspection Unit := do
  let owner := (← get).context.owner
  d.inspectHead h owner
  d.methods.forM (·.inspect h)
  d.inspectTail h owner

/-- Inspects a class of a program, in a context of its own. -/
def inspectFresh (h : Hierarchy) (d : ClassDecl) : Inspection Unit :=
  match d.live? h with
  | none => return
  | some owner => within { owner } (d.inspect h)

end ClassDecl

/-- Inspects the statement of the main class, in a context of its own. -/
def MainClass.inspect (h : Hierarchy) (m : MainClass) : Inspection Unit := do
  let some owner := h.get? m.name | throw .noMainMethod
  let some method := owner.methods.get? mainMethod | throw .noMainMethod
  within { owner } do
    openScope method.scope
    m.body.inspect h
    closeScope

def Program.inspect (h : Hierarchy) (p : Program) : Inspection Unit := do
  p.main.inspect h
  p.classes.forM (·.inspectFresh h)

/-- Inspects a node and gives what it yields. -/
def Node.inspect (h : Hierarchy) (n : Node) : Inspection Outcome :=
  match n with
  | .program p => do
    p.inspect h
    return .nothing
  | .mainClass m => do
    m.inspect h
    return .nothing
  | .classDecl d => do
    d.inspect h
    return .nothing
  | .classes ds _ => do
    ds.forM (·.inspect h)
    return .nothing
  | .methodDecl d => do
    d.inspect h
    return .nothing
  | .methods ds _ => do
    ds.forM (·.inspect h)
    return .nothing
  | .stmt s => do
    s.inspect h
    return .nothing
  | .stmts ss _ => do
    Stmt.inspectAll h ss
    return .nothing
  | .expr e => return .type (← e.inspect h)
  | .exprs es _ => return .ofTypes (← Expr.inspectAll h es)
  | .varDecl _ | .vars _ _ | .typeLiteral _ =>
    match n.refuse .typing with
    | .ok _ => return .nothing
    | .error f => throw f

end MiniJava
