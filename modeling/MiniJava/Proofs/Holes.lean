import MiniJava.Proofs.Findings

/-!
# Occurrences of expressions

An occurrence of an expression is what is left when it is taken out: a hole in an expression, a
statement, a method or a program. Filling the hole with the expression gives the whole back, filling
it with another one replaces the occurrence.
-/

namespace MiniJava

/-- One layer of an expression around one of its operands. -/
inductive ExprFrame where
  | unary (op : UnaryOp) (line : Line)
  | binaryLeft (op : BinaryOp) (rhs : Expr) (line : Line)
  | binaryRight (op : BinaryOp) (lhs : Expr) (line : Line)
  | lookupArray (index : Expr) (line : Line)
  | lookupIndex (array : Expr) (line : Line)
  | lengthArray (line : Line)
  | callReceiver (method : String) (args : List Expr) (line : Line)
  | callArg (receiver : Expr) (method : String) (before after : List Expr) (line : Line)
  | newArraySize (line : Line)

def ExprFrame.plug (e : Expr) : ExprFrame → Expr
  | unary op line => .unary op e line
  | binaryLeft op rhs line => .binary op e rhs line
  | binaryRight op lhs line => .binary op lhs e line
  | lookupArray index line => .arrayLookup e index line
  | lookupIndex array line => .arrayLookup array e line
  | lengthArray line => .arrayLength e line
  | callReceiver method args line => .call e method args line
  | callArg receiver method before after line => .call receiver method (before ++ e :: after) line
  | newArraySize line => .newArray e line

/-- A hole in an expression: the layers around it, the outermost first. -/
abbrev ExprHole := List ExprFrame

def ExprHole.fill (e : Expr) : ExprHole → Expr
  | [] => e
  | frame :: hole => frame.plug (ExprHole.fill e hole)

/-- One layer of a statement around one of the statements in it. -/
inductive StmtFrame where
  | block (before after : List Stmt) (line : Line)
  | branchYes (cond : Expr) (no : Stmt) (line : Line)
  | branchNo (cond : Expr) (yes : Stmt) (line : Line)
  | loopBody (cond : Expr) (line : Line)

def StmtFrame.plug (s : Stmt) : StmtFrame → Stmt
  | block before after line => .block (before ++ s :: after) line
  | branchYes cond no line => .branch cond s no line
  | branchNo cond yes line => .branch cond yes s line
  | loopBody cond line => .loop cond s line

/-- A statement around one of the expressions that stand directly in it. -/
inductive StmtSlot where
  | branchCond (yes no : Stmt) (line : Line)
  | loopCond (body : Stmt) (line : Line)
  | print (line : Line)
  | assign (name : String) (line : Line)
  | assignAtIndex (name : String) (value : Expr) (line : Line)
  | assignAtValue (name : String) (index : Expr) (line : Line)

def StmtSlot.plug (e : Expr) : StmtSlot → Stmt
  | branchCond yes no line => .branch e yes no line
  | loopCond body line => .loop e body line
  | print line => .print e line
  | assign name line => .assign name e line
  | assignAtIndex name value line => .assignAt name e value line
  | assignAtValue name index line => .assignAt name index e line

/-- A hole in a statement: the statements around the one in which the expression stands, the
outermost first, the place there, and the hole in the expression at that place. -/
structure StmtHole where
  outer : List StmtFrame
  slot : StmtSlot
  inner : ExprHole

def StmtHole.fill (e : Expr) (hole : StmtHole) : Stmt :=
  hole.outer.foldr (fun frame s => frame.plug s) (hole.slot.plug (hole.inner.fill e))

/-- A hole in the code of a method. -/
inductive MethodHole where
  | body (before : List Stmt) (hole : StmtHole) (after : List Stmt)
  | result (hole : ExprHole)

namespace MethodHole

/-- The method with the given head and the code with the hole filled. -/
def fill (m : MethodDecl) (e : Expr) : MethodHole → MethodDecl
  | body before hole after => { m with body := before ++ hole.fill e :: after }
  | result hole => { m with result := hole.fill e }

def inner : MethodHole → ExprHole
  | body _ hole _ => hole.inner
  | result hole => hole

end MethodHole

/-- A hole in the main statement or in a method of a program. -/
inductive ProgramHole where
  | main (p : Program) (hole : StmtHole)
  | method (p : Program) (before : List ClassDecl) (c : ClassDecl) (after : List ClassDecl)
      (earlier : List MethodDecl) (m : MethodDecl) (later : List MethodDecl) (hole : MethodHole)

namespace ProgramHole

def fill (e : Expr) : ProgramHole → Program
  | main p hole => { p with main := { p.main with body := hole.fill e } }
  | method p before c after earlier m later hole =>
    { p with
      classes := before ++ { c with methods := earlier ++ hole.fill m e :: later } :: after }

/-- The layers of expressions around the hole. -/
def inner : ProgramHole → ExprHole
  | main _ hole => hole.inner
  | method _ _ _ _ _ _ _ hole => hole.inner

/-- The context in which the code around the hole is checked. -/
def context? (h : Hierarchy) : ProgramHole → Option Context
  | main p _ => p.main.context? h
  | method _ _ c _ _ m _ _ => m.context? h c

end ProgramHole

end MiniJava
