import Mathlib.Data.List.Forall2
import Mathlib.Logic.Relation
import MiniJava.Tree.Basic

/-!
# Typing rules

What it means for a program to be well typed, as rules over program trees. Names of classes stand
for their declarations: subclassing is the closure of `extends`, a member is that of the nearest
class on the chain of superclasses, and the typing of expressions and statements is inductive.
-/

namespace MiniJava
open Relation

structure Signature where
  params : List Ty
  result : Ty
deriving DecidableEq, Repr

namespace MethodDecl

def sig (d : MethodDecl) : Signature := ⟨d.formals.map (·.ty), d.returnType.ty⟩

/-- Formals and locals share one scope. -/
def vars (d : MethodDecl) : List VarDecl := d.formals ++ d.locals

def DistinctNames (d : MethodDecl) : Prop := (d.vars.map (·.name)).Nodup

end MethodDecl

/-- Field names, method names and the variable names of each method do not repeat. -/
structure ClassDecl.DistinctNames (d : ClassDecl) : Prop where
  fields : (d.fields.map (·.name)).Nodup
  methods : (d.methods.map (·.name)).Nodup
  methodVars : ∀ m ∈ d.methods, m.DistinctNames

namespace Program

variable (p : Program)

def classNames : List String := p.main.name :: p.classes.map (·.name)

structure DistinctNames : Prop where
  classes : p.classNames.Nodup
  members : ∀ c ∈ p.classes, c.DistinctNames

/-- A class called `a` names `b` as its superclass. -/
def Extends (a b : String) : Prop := ∃ c ∈ p.classes, c.name = a ∧ c.superName = some b

/-- Class `owner` itself declares the field with that type. -/
def HasField (name owner : String) (t : Ty) : Prop :=
  ∃ c ∈ p.classes, c.name = owner ∧ ∃ f ∈ c.fields, f.name = name ∧ f.ty = t

/-- Class `owner` itself declares the method with that signature. The main class declares `main`,
from an array of strings to nothing. -/
inductive HasMethod : String → String → Signature → Prop
  | main : HasMethod "main" p.main.name ⟨[.stringArray], .void⟩
  | declared {c : ClassDecl} {m : MethodDecl} (hc : c ∈ p.classes) (hm : m ∈ c.methods) :
      HasMethod m.name c.name m.sig

/-- What the nearest class from `c` up the chain of superclasses has, among those that have
anything of the kind. -/
inductive Nearest {α : Type} (Has : String → α → Prop) : String → α → Prop
  | own {c : String} {x : α} (hx : Has c x) : Nearest Has c x
  | inherited {c d : String} {x : α} (hnone : ∀ y, ¬ Has c y) (hd : p.Extends c d)
      (hx : Nearest Has d x) : Nearest Has c x

/-- A class and any class above it declare a method of the same name with the same signature. -/
def OverridesSame : Prop :=
  ∀ a b, TransGen p.Extends a b → ∀ m s t, p.HasMethod m a s → p.HasMethod m b t → s = t

/-- Every class that the type names is declared. -/
def Declared : Ty → Prop
  | .object c => c ∈ p.classNames
  | _ => True

/-- Assignment compatibility: a class goes for its superclasses, any other type for itself. -/
inductive Assignable : Ty → Ty → Prop
  | same (t : Ty) : Assignable t t
  | subclass {a b : String} (hab : ReflTransGen p.Extends a b) : Assignable (.object a) (.object b)

/-- The type of an expression inside class `self`, where `vars` tells the types of variables. -/
inductive HasType (self : String) (vars : String → Ty → Prop) : Expr → Ty → Prop
  | intLiteral (n : Int) (line : Line) : HasType self vars (.intLiteral n line) .int
  | boolLiteral (b : Bool) (line : Line) : HasType self vars (.boolLiteral b line) .boolean
  | this (line : Line) : HasType self vars (.this line) (.object self)
  | identifier {x : String} {t : Ty} (line : Line) (hx : vars x t) :
      HasType self vars (.identifier x line) t
  | not {e : Expr} (line : Line) (he : HasType self vars e .boolean) :
      HasType self vars (.unary .not e line) .boolean
  | and {l r : Expr} (line : Line) (hl : HasType self vars l .boolean)
      (hr : HasType self vars r .boolean) : HasType self vars (.binary .and l r line) .boolean
  | less {l r : Expr} (line : Line) (hl : HasType self vars l .int)
      (hr : HasType self vars r .int) : HasType self vars (.binary .less l r line) .boolean
  | arith {op : BinaryOp} {l r : Expr} (line : Line) (hop : op = .add ∨ op = .sub ∨ op = .mul)
      (hl : HasType self vars l .int) (hr : HasType self vars r .int) :
      HasType self vars (.binary op l r line) .int
  | arrayLookup {a i : Expr} (line : Line) (ha : HasType self vars a .intArray)
      (hi : HasType self vars i .int) : HasType self vars (.arrayLookup a i line) .int
  | arrayLength {a : Expr} (line : Line) (ha : HasType self vars a .intArray) :
      HasType self vars (.arrayLength a line) .int
  | newArray {n : Expr} (line : Line) (hn : HasType self vars n .int) :
      HasType self vars (.newArray n line) .intArray
  | newObject {c : String} (line : Line) (hc : c ∈ p.classNames) :
      HasType self vars (.newObject c line) (.object c)
  | call {e : Expr} {c m : String} {args : List Expr} {ts : List Ty} {s : Signature} (line : Line)
      (he : HasType self vars e (.object c)) (hm : p.Nearest (p.HasMethod m) c s)
      (hargs : List.Forall₂ (HasType self vars) args ts)
      (hsub : List.Forall₂ p.Assignable ts s.params) :
      HasType self vars (.call e m args line) s.result

/-- A statement that obeys the rules. -/
inductive StmtTyped (self : String) (vars : String → Ty → Prop) : Stmt → Prop
  | block {body : List Stmt} (line : Line) (hbody : ∀ s ∈ body, StmtTyped self vars s) :
      StmtTyped self vars (.block body line)
  | branch {cond : Expr} {yes no : Stmt} (line : Line)
      (hcond : p.HasType self vars cond .boolean) (hyes : StmtTyped self vars yes)
      (hno : StmtTyped self vars no) : StmtTyped self vars (.branch cond yes no line)
  | loop {cond : Expr} {body : Stmt} (line : Line) (hcond : p.HasType self vars cond .boolean)
      (hbody : StmtTyped self vars body) : StmtTyped self vars (.loop cond body line)
  | print {e : Expr} (line : Line) (he : p.HasType self vars e .int) :
      StmtTyped self vars (.print e line)
  | assign {x : String} {e : Expr} {s t : Ty} (line : Line) (hx : vars x t)
      (he : p.HasType self vars e s) (hsub : p.Assignable s t) :
      StmtTyped self vars (.assign x e line)
  | assignAt {x : String} {i e : Expr} (line : Line) (hx : vars x .intArray)
      (hi : p.HasType self vars i .int) (he : p.HasType self vars e .int) :
      StmtTyped self vars (.assignAt x i e line)

/-- The main statement sees the argument only. -/
def MainVar (x : String) (t : Ty) : Prop := x = p.main.arg ∧ t = .stringArray

/-- Inside a method a name means the variable of the method, else the nearest field. -/
def MethodVar (c : ClassDecl) (m : MethodDecl) (x : String) (t : Ty) : Prop :=
  (∃ v ∈ m.vars, v.name = x ∧ v.ty = t) ∨
    (∀ v ∈ m.vars, v.name ≠ x) ∧ p.Nearest (p.HasField x) c.name t

/-- The body obeys the rules and the returned value goes for the return type. -/
structure MethodTyped (c : ClassDecl) (m : MethodDecl) : Prop where
  body : ∀ s ∈ m.body, p.StmtTyped c.name (p.MethodVar c m) s
  result : ∃ t, p.HasType c.name (p.MethodVar c m) m.result t ∧ p.Assignable t m.returnType.ty

/-- The rules for a whole program. -/
structure WellTyped : Prop where
  distinct : p.DistinctNames
  superclass_declared : ∀ a b, p.Extends a b → b ∈ p.classNames
  acyclic : ∀ a, ¬ TransGen p.Extends a a
  field_declared : ∀ c ∈ p.classes, ∀ f ∈ c.fields, p.Declared f.ty
  var_declared : ∀ c ∈ p.classes, ∀ m ∈ c.methods, ∀ v ∈ m.vars, p.Declared v.ty
  result_declared : ∀ c ∈ p.classes, ∀ m ∈ c.methods, p.Declared m.returnType.ty
  override_same : p.OverridesSame
  main_typed : p.StmtTyped p.main.name p.MainVar p.main.body
  method_typed : ∀ c ∈ p.classes, ∀ m ∈ c.methods, p.MethodTyped c m

end Program

end MiniJava
