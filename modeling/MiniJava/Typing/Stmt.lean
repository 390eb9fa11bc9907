import MiniJava.Typing.Expr

/-!
# Checking statements
-/

namespace MiniJava

/-- The diagnostics of `name = value`. The target is looked up before the value is typed. -/
def checkAssign (h : Hierarchy) (ctx : Context) (name : String) (value : Expr) (line : Line) :
    List Diagnostic :=
  let r := value.infer h ctx
  match ctx.typeOf h name line with
  | .error d => d :: r.2
  | .ok target =>
    r.2 ++ if h.fits r.1 target then [] else [⟨.assignmentTypeMismatch name target r.1, line⟩]

/-- The diagnostics of `name[index] = value`. -/
def checkAssignAt (h : Hierarchy) (ctx : Context) (name : String) (index value : Expr)
    (line : Line) : List Diagnostic :=
  let target := match ctx.typeOf h name line with
    | .error d => [d]
    | .ok t => if h.fits t .intArray then [] else [⟨.typeMismatch .intArray t, line⟩]
  target ++ index.checkAs h ctx .int ++ value.checkAs h ctx .int

mutual

/-- The diagnostics of a statement, in the order in which they are found. -/
def Stmt.check (h : Hierarchy) (ctx : Context) : Stmt → List Diagnostic
  | .block body _ => Stmt.checkAll h ctx body
  | .branch cond yes no _ => cond.checkAsCondition h ctx ++ yes.check h ctx ++ no.check h ctx
  | .loop cond body _ => cond.checkAsCondition h ctx ++ body.check h ctx
  | .print value _ => value.checkAs h ctx .int
  | .assign name value line => checkAssign h ctx name value line
  | .assignAt name index value line => checkAssignAt h ctx name index value line
termination_by structural s => s

def Stmt.checkAll (h : Hierarchy) (ctx : Context) : List Stmt → List Diagnostic
  | [] => []
  | s :: ss => s.check h ctx ++ Stmt.checkAll h ctx ss
termination_by structural ss => ss

end

@[simp] theorem Stmt.checkAll_eq_flatMap (h : Hierarchy) (ctx : Context) (ss : List Stmt) :
    Stmt.checkAll h ctx ss = ss.flatMap (Stmt.check h ctx) := by
  induction ss with
  | nil => rfl
  | cons s ss ih => simp [Stmt.checkAll, ih]

end MiniJava
