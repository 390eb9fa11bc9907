import MiniJava.Tree.Operator

/-!
# Program trees

Expressions, statements and declarations. Each of them may know the line it stands on; a class or
method declaration also has a number that tells it from every other declaration, whatever its
text.
-/

namespace MiniJava

abbrev Line := Option Int

inductive Expr where
  | unary (op : UnaryOp) (operand : Expr) (line : Line)
  | binary (op : BinaryOp) (lhs rhs : Expr) (line : Line)
  | arrayLookup (array index : Expr) (line : Line)
  | arrayLength (array : Expr) (line : Line)
  | call (receiver : Expr) (method : String) (args : List Expr) (line : Line)
  | newArray (size : Expr) (line : Line)
  | newObject (className : String) (line : Line)
  | this (line : Line)
  | identifier (name : String) (line : Line)
  | intLiteral (value : Int) (line : Line)
  | boolLiteral (value : Bool) (line : Line)
deriving Repr, Inhabited

def Expr.line : Expr → Line
  | unary _ _ line | binary _ _ _ line | arrayLookup _ _ line | arrayLength _ line
  | call _ _ _ line | newArray _ line | newObject _ line | this line | identifier _ line
  | intLiteral _ line | boolLiteral _ line => line

inductive Stmt where
  | block (body : List Stmt) (line : Line)
  | branch (cond : Expr) (yes no : Stmt) (line : Line)
  | loop (cond : Expr) (body : Stmt) (line : Line)
  | print (value : Expr) (line : Line)
  | assign (name : String) (value : Expr) (line : Line)
  | assignAt (name : String) (index value : Expr) (line : Line)
deriving Repr, Inhabited

def Stmt.line : Stmt → Line
  | block _ line | branch _ _ _ line | loop _ _ line | print _ line | assign _ _ line
  | assignAt _ _ _ line => line

/-- A type as it is written in a declaration. -/
inductive TypeName where
  | int
  | boolean
  | intArray
  | ofClass (className : String)
deriving DecidableEq, Repr, Inhabited

def TypeName.ty : TypeName → Ty
  | int => .int
  | boolean => .boolean
  | intArray => .intArray
  | ofClass className => .object className

structure TypeLiteral where
  type : TypeName
  line : Line
deriving DecidableEq, Repr, Inhabited

def TypeLiteral.ty (t : TypeLiteral) : Ty := t.type.ty

/-- The declaration of a field, a formal parameter or a local variable. -/
structure VarDecl where
  type : TypeLiteral
  name : String
  line : Line
deriving DecidableEq, Repr, Inhabited

def VarDecl.ty (d : VarDecl) : Ty := d.type.ty

/-- A method ends with one expression, whose value it returns. -/
structure MethodDecl where
  id : Nat
  returnType : TypeLiteral
  name : String
  formals : List VarDecl
  locals : List VarDecl
  body : List Stmt
  result : Expr
  line : Line
deriving Repr, Inhabited

structure ClassDecl where
  id : Nat
  name : String
  superName : Option String
  fields : List VarDecl
  methods : List MethodDecl
  line : Line
deriving Repr, Inhabited

/-- The class whose only method is `main`, with the name of its argument and its one statement. -/
structure MainClass where
  name : String
  arg : String
  body : Stmt
  line : Line
deriving Repr, Inhabited

structure Program where
  main : MainClass
  classes : List ClassDecl
  line : Line
deriving Repr, Inhabited

end MiniJava
