import MiniJava.Text.Joined
import MiniJava.Tree.Basic

/-!
# Printed trees

Most nodes are printed as their name, followed by their printed children in brackets if there are
any; operators, calls, assignments and names have forms of their own.
-/

namespace MiniJava

/-- A name and printed children. -/
def bracketed (name : String) : List String → String
  | [] => name
  | children => name ++ "[" ++ Text.joined ", " children ++ "]"

mutual

def Expr.render : Expr → String
  | .unary op operand _ => op.symbol ++ "(" ++ operand.render ++ ")"
  | .binary op lhs rhs _ => "(" ++ lhs.render ++ ")" ++ op.symbol ++ "(" ++ rhs.render ++ ")"
  | .arrayLookup array index _ => bracketed "array_lookup" [array.render, index.render]
  | .arrayLength array _ => bracketed "array_length" [array.render]
  | .call receiver method args _ =>
    receiver.render ++ "." ++ method ++ "(" ++ Text.joined ", " (Expr.renderAll args) ++ ")"
  | .newArray size _ => bracketed "new_array" [size.render]
  | .newObject className _ => "new(" ++ className ++ ")"
  | .this _ => "this"
  | .identifier name _ => "identifier(" ++ name ++ ")"
  | .intLiteral value _ => "int(" ++ toString value ++ ")"
  | .boolLiteral value _ => if value then "bool(true)" else "bool(false)"
termination_by structural e => e

def Expr.renderAll : List Expr → List String
  | [] => []
  | e :: es => e.render :: Expr.renderAll es
termination_by structural es => es

end

mutual

def Stmt.render : Stmt → String
  | .block body _ => bracketed "block" (Stmt.renderAll body)
  | .branch cond yes no _ => bracketed "if" [cond.render, yes.render, no.render]
  | .loop cond body _ => bracketed "while" [cond.render, body.render]
  | .print value _ => bracketed "print" [value.render]
  | .assign name value _ => "assign(" ++ name ++ ", " ++ value.render ++ ")"
  | .assignAt _ index value _ => bracketed "array_assign" [index.render, value.render]
termination_by structural s => s

def Stmt.renderAll : List Stmt → List String
  | [] => []
  | s :: ss => s.render :: Stmt.renderAll ss
termination_by structural ss => ss

end

@[simp] theorem Expr.renderAll_eq_map (es : List Expr) :
    Expr.renderAll es = es.map Expr.render := by
  induction es with
  | nil => rfl
  | cons e es ih => simp [Expr.renderAll, ih]

@[simp] theorem Stmt.renderAll_eq_map (ss : List Stmt) :
    Stmt.renderAll ss = ss.map Stmt.render := by
  induction ss with
  | nil => rfl
  | cons s ss ih => simp [Stmt.renderAll, ih]

def TypeLiteral.render (t : TypeLiteral) : String := "type(" ++ t.ty.name ++ ")"

def VarDecl.render (d : VarDecl) : String := "var(" ++ d.ty.name ++ " " ++ d.name ++ ")"

def MethodDecl.render (d : MethodDecl) : String :=
  bracketed "method_decl"
    [d.returnType.render, bracketed "var_decl_list" (d.formals.map (·.render)),
      bracketed "var_decl_list" (d.locals.map (·.render)),
      bracketed "statement_list" (d.body.map (·.render)), d.result.render]

def ClassDecl.render (d : ClassDecl) : String :=
  match d.superName with
  | none => "class(" ++ d.name ++ ")"
  | some s => "class(" ++ d.name ++ " extends " ++ s ++ ")"

def MainClass.render (m : MainClass) : String := bracketed "main_class" [m.body.render]

def Program.render (p : Program) : String :=
  bracketed "program" [p.main.render, bracketed "class_list" (p.classes.map (·.render))]

end MiniJava
