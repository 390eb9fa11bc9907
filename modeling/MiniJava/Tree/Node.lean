import MiniJava.IndexFault
import MiniJava.Tree.Printer

/-!
# Nodes

Any part of a program tree, with its name, its children and its printed form.
-/

namespace MiniJava

inductive Node where
  | program (p : Program)
  | mainClass (m : MainClass)
  | classDecl (d : ClassDecl)
  | varDecl (d : VarDecl)
  | methodDecl (d : MethodDecl)
  | stmt (s : Stmt)
  | expr (e : Expr)
  | typeLiteral (t : TypeLiteral)
  | classes (ds : List ClassDecl) (line : Line)
  | vars (ds : List VarDecl) (line : Line)
  | methods (ds : List MethodDecl) (line : Line)
  | stmts (ss : List Stmt) (line : Line)
  | exprs (es : List Expr) (line : Line)
deriving Repr, Inhabited

def Expr.nodeName : Expr → String
  | unary op _ _ => "unary(" ++ op.symbol ++ ")"
  | binary op _ _ _ => "binary(" ++ op.symbol ++ ")"
  | arrayLookup _ _ _ => "array_lookup"
  | arrayLength _ _ => "array_length"
  | call _ _ _ _ => "call"
  | newArray _ _ => "new_array"
  | newObject _ _ => "new_object"
  | this _ => "this"
  | identifier _ _ => "identifier"
  | intLiteral _ _ => "int_literal"
  | boolLiteral _ _ => "bool_literal"

def Stmt.nodeName : Stmt → String
  | block _ _ => "block"
  | branch _ _ _ _ => "if"
  | loop _ _ _ => "while"
  | print _ _ => "print"
  | assign _ _ _ => "assign"
  | assignAt _ _ _ _ => "array_assign"

def TypeName.nodeName : TypeName → String
  | int => "type_int"
  | boolean => "type_boolean"
  | intArray => "type_int_array"
  | ofClass _ => "type_class"

def Expr.children : Expr → List Node
  | unary _ operand _ => [.expr operand]
  | binary _ lhs rhs _ => [.expr lhs, .expr rhs]
  | arrayLookup array index _ => [.expr array, .expr index]
  | arrayLength array _ => [.expr array]
  | call receiver _ args _ => [.expr receiver, .exprs args none]
  | newArray size _ => [.expr size]
  | newObject _ _ | this _ | identifier _ _ | intLiteral _ _ | boolLiteral _ _ => []

def Stmt.children : Stmt → List Node
  | block body _ => body.map .stmt
  | branch cond yes no _ => [.expr cond, .stmt yes, .stmt no]
  | loop cond body _ => [.expr cond, .stmt body]
  | print value _ => [.expr value]
  | assign _ value _ => [.expr value]
  | assignAt _ index value _ => [.expr index, .expr value]

namespace Node

def name : Node → String
  | program _ => "program"
  | mainClass _ => "main_class"
  | classDecl _ => "class_decl"
  | varDecl _ => "var_decl"
  | methodDecl _ => "method_decl"
  | stmt s => s.nodeName
  | expr e => e.nodeName
  | typeLiteral t => t.type.nodeName
  | classes _ _ => "class_list"
  | vars _ _ => "var_decl_list"
  | methods _ _ => "method_decl_list"
  | stmts _ _ => "statement_list"
  | exprs _ _ => "expression_list"

def line : Node → Line
  | program p => p.line
  | mainClass m => m.line
  | classDecl d => d.line
  | varDecl d => d.line
  | methodDecl d => d.line
  | stmt s => s.line
  | expr e => e.line
  | typeLiteral t => t.line
  | classes _ line | vars _ line | methods _ line | stmts _ line | exprs _ line => line

/-- The children in order. The lists inside a declaration or a call are nodes without a line. -/
def children : Node → List Node
  | program p => [mainClass p.main, classes p.classes none]
  | mainClass m => [stmt m.body]
  | classDecl d => [vars d.fields none, methods d.methods none]
  | varDecl d => [typeLiteral d.type]
  | methodDecl d =>
    [typeLiteral d.returnType, vars d.formals none, vars d.locals none, stmts d.body none,
      expr d.result]
  | stmt s => s.children
  | expr e => e.children
  | typeLiteral _ => []
  | classes ds _ => ds.map classDecl
  | vars ds _ => ds.map varDecl
  | methods ds _ => ds.map methodDecl
  | stmts ss _ => ss.map stmt
  | exprs es _ => es.map expr

/-- Whether the children are a sequence of any length. -/
def isSequence : Node → Bool
  | stmt (.block _ _) | classes _ _ | vars _ _ | methods _ _ | stmts _ _ | exprs _ _ => true
  | _ => false

def isLeaf (n : Node) : Bool := !n.isSequence && n.children.isEmpty

/-- How a position at which there is no child is refused. -/
def indexFault (n : Node) (index : Int) : IndexFault :=
  if n.isLeaf then .leaf index n.name
  else if !IndexFault.isWord index then .tooWide
  else if n.isSequence then .sequence
  else .record

/-- The child at a position; negative positions count from the end. -/
def child (n : Node) (index : Int) : Except IndexFault Node :=
  let position := if index < 0 then index + n.children.length else index
  if position < 0 then .error (n.indexFault index)
  else match n.children[position.toNat]? with
    | some c => .ok c
    | none => .error (n.indexFault index)

def render : Node → String
  | program p => p.render
  | mainClass m => m.render
  | classDecl d => d.render
  | varDecl d => d.render
  | methodDecl d => d.render
  | stmt s => s.render
  | expr e => e.render
  | typeLiteral t => t.render
  | classes ds _ => bracketed "class_list" (ds.map (·.render))
  | vars ds _ => bracketed "var_decl_list" (ds.map (·.render))
  | methods ds _ => bracketed "method_decl_list" (ds.map (·.render))
  | stmts ss _ => bracketed "statement_list" (ss.map (·.render))
  | exprs es _ => bracketed "expression_list" (es.map (·.render))

end Node

end MiniJava
