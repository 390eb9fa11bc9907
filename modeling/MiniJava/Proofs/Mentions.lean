import Mathlib.Tactic.Lemma
import MiniJava.Proofs.Rules

/-!
# Names in a text

The variables and classes that a text mentions, each with the line that would be told of it, in the
order in which they are looked up.
-/

namespace MiniJava

/-- A name where it is used. -/
inductive Mention where
  | ofVar (name : String) (line : Line)
  | ofClass (name : String) (line : Line)
deriving DecidableEq, Repr

mutual

/-- The names in an expression, from left to right. -/
def Expr.mentions : Expr → List Mention
  | .unary _ operand _ => operand.mentions
  | .binary _ lhs rhs _ => lhs.mentions ++ rhs.mentions
  | .arrayLookup array index _ => array.mentions ++ index.mentions
  | .arrayLength array _ => array.mentions
  | .call receiver _ args _ => receiver.mentions ++ Expr.mentionsAll args
  | .newArray size _ => size.mentions
  | .newObject className line => [.ofClass className line]
  | .identifier name line => [.ofVar name line]
  | .this _ | .intLiteral _ _ | .boolLiteral _ _ => []
termination_by structural e => e

def Expr.mentionsAll : List Expr → List Mention
  | [] => []
  | e :: es => e.mentions ++ Expr.mentionsAll es
termination_by structural es => es

end

@[simp] lemma Expr.mentionsAll_eq_flatMap (es : List Expr) :
    Expr.mentionsAll es = es.flatMap Expr.mentions := by
  induction es with
  | nil => rfl
  | cons e es ih => simp [Expr.mentionsAll, ih]

mutual

/-- The names in a statement; the target of an assignment comes before the value. -/
def Stmt.mentions : Stmt → List Mention
  | .block body _ => Stmt.mentionsAll body
  | .branch cond yes no _ => cond.mentions ++ yes.mentions ++ no.mentions
  | .loop cond body _ => cond.mentions ++ body.mentions
  | .print value _ => value.mentions
  | .assign name value line => .ofVar name line :: value.mentions
  | .assignAt name index value line => .ofVar name line :: (index.mentions ++ value.mentions)
termination_by structural s => s

def Stmt.mentionsAll : List Stmt → List Mention
  | [] => []
  | s :: ss => s.mentions ++ Stmt.mentionsAll ss
termination_by structural ss => ss

end

@[simp] lemma Stmt.mentionsAll_eq_flatMap (ss : List Stmt) :
    Stmt.mentionsAll ss = ss.flatMap Stmt.mentions := by
  induction ss with
  | nil => rfl
  | cons s ss ih => simp [Stmt.mentionsAll, ih]

def TypeName.mentions (line : Line) : TypeName → List Mention
  | .ofClass className => [.ofClass className line]
  | .int | .boolean | .intArray => []

def VarDecl.mentions (d : VarDecl) : List Mention := d.type.type.mentions d.line

/-- The names in a method: in its types, then in its code. -/
def MethodDecl.mentions (m : MethodDecl) : List Mention :=
  m.returnType.type.mentions m.returnType.line ++ m.vars.flatMap VarDecl.mentions ++
    m.body.flatMap Stmt.mentions ++ m.result.mentions

/-- The names in a class that are in none of its methods: the superclass and the types of fields. -/
def ClassDecl.mentions (c : ClassDecl) : List Mention :=
  (c.superName.toList.map fun s => .ofClass s c.line) ++ c.fields.flatMap VarDecl.mentions

/-- The names in a program. What a program declares is not mentioned by its declaration. -/
def Program.mentions (p : Program) : List Mention :=
  p.main.body.mentions ++
    p.classes.flatMap fun c => c.mentions ++ c.methods.flatMap MethodDecl.mentions

end MiniJava
