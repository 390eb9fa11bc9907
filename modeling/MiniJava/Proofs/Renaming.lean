import Mathlib.Logic.Embedding.Basic
import MiniJava.Proofs.Inference

/-!
# Renamings

Other names for classes, methods and variables, and other lines. A renaming acts on program trees,
on what is known of classes and methods, and on what is told of them. A table in which both the
names and what stands under them are renamed gives renamed answers, and so does every question to a
hierarchy, since different names stay different.
-/

namespace MiniJava

/-- Different classes, methods and variables keep different names, and `main` its own; lines may be
mapped in any way. -/
structure Renaming where
  className : String ↪ String
  method : String ↪ String
  var : String ↪ String
  line : Line → Line
  method_main : method mainMethod = mainMethod

namespace Renaming

variable (ρ : Renaming)

/-! ### Program trees -/

def ty : Ty → Ty
  | .object c => .object (ρ.className c)
  | t => t

def typeName : TypeName → TypeName
  | .ofClass c => .ofClass (ρ.className c)
  | t => t

def typeLiteral (t : TypeLiteral) : TypeLiteral := ⟨ρ.typeName t.type, ρ.line t.line⟩

def varDecl (d : VarDecl) : VarDecl := ⟨ρ.typeLiteral d.type, ρ.var d.name, ρ.line d.line⟩

mutual

def expr : Expr → Expr
  | .unary op operand line => .unary op (expr operand) (ρ.line line)
  | .binary op lhs rhs line => .binary op (expr lhs) (expr rhs) (ρ.line line)
  | .arrayLookup array index line => .arrayLookup (expr array) (expr index) (ρ.line line)
  | .arrayLength array line => .arrayLength (expr array) (ρ.line line)
  | .call receiver method args line =>
    .call (expr receiver) (ρ.method method) (exprs args) (ρ.line line)
  | .newArray size line => .newArray (expr size) (ρ.line line)
  | .newObject className line => .newObject (ρ.className className) (ρ.line line)
  | .this line => .this (ρ.line line)
  | .identifier name line => .identifier (ρ.var name) (ρ.line line)
  | .intLiteral value line => .intLiteral value (ρ.line line)
  | .boolLiteral value line => .boolLiteral value (ρ.line line)
termination_by structural e => e

def exprs : List Expr → List Expr
  | [] => []
  | e :: es => expr e :: exprs es
termination_by structural es => es

end

mutual

def stmt : Stmt → Stmt
  | .block body line => .block (stmts body) (ρ.line line)
  | .branch cond yes no line => .branch (ρ.expr cond) (stmt yes) (stmt no) (ρ.line line)
  | .loop cond body line => .loop (ρ.expr cond) (stmt body) (ρ.line line)
  | .print value line => .print (ρ.expr value) (ρ.line line)
  | .assign name value line => .assign (ρ.var name) (ρ.expr value) (ρ.line line)
  | .assignAt name index value line =>
    .assignAt (ρ.var name) (ρ.expr index) (ρ.expr value) (ρ.line line)
termination_by structural s => s

def stmts : List Stmt → List Stmt
  | [] => []
  | s :: ss => stmt s :: stmts ss
termination_by structural ss => ss

end

@[simp] lemma exprs_eq_map (es : List Expr) : ρ.exprs es = es.map ρ.expr := by
  induction es with
  | nil => rfl
  | cons e es ih => rw [exprs, ih, List.map_cons]

@[simp] lemma stmts_eq_map (ss : List Stmt) : ρ.stmts ss = ss.map ρ.stmt := by
  induction ss with
  | nil => rfl
  | cons s ss ih => rw [stmts, ih, List.map_cons]

/-- The numbers of declarations stay. -/
def methodDecl (d : MethodDecl) : MethodDecl where
  id := d.id
  returnType := ρ.typeLiteral d.returnType
  name := ρ.method d.name
  formals := d.formals.map ρ.varDecl
  locals := d.locals.map ρ.varDecl
  body := d.body.map ρ.stmt
  result := ρ.expr d.result
  line := ρ.line d.line

def classDecl (d : ClassDecl) : ClassDecl where
  id := d.id
  name := ρ.className d.name
  superName := d.superName.map ρ.className
  fields := d.fields.map ρ.varDecl
  methods := d.methods.map ρ.methodDecl
  line := ρ.line d.line

def mainClass (m : MainClass) : MainClass :=
  ⟨ρ.className m.name, ρ.var m.arg, ρ.stmt m.body, ρ.line m.line⟩

def program (p : Program) : Program :=
  ⟨ρ.mainClass p.main, p.classes.map ρ.classDecl, ρ.line p.line⟩

lemma ty_int : ρ.ty .int = .int := rfl

lemma ty_boolean : ρ.ty .boolean = .boolean := rfl

lemma ty_intArray : ρ.ty .intArray = .intArray := rfl

@[simp] lemma ty_typeName (t : TypeName) : (ρ.typeName t).ty = ρ.ty t.ty := by
  cases t <;> rfl

@[simp] lemma ty_varDecl (d : VarDecl) : (ρ.varDecl d).ty = ρ.ty d.ty := ρ.ty_typeName d.type.type

lemma formalNames_methodDecl (m : MethodDecl) : (ρ.methodDecl m).formals.map VarDecl.name =
    (m.formals.map VarDecl.name).map ρ.var := by
  rw [methodDecl, List.map_map, List.map_map]
  rfl

@[simp] lemma line_expr (e : Expr) : (ρ.expr e).line = ρ.line e.line := by
  cases e <;> rfl

lemma ty_injective : Function.Injective ρ.ty := by
  intro s t hst
  cases s <;> cases t <;> simp_all [ty]

end Renaming

/-! ### Tables -/

/-- Other names and other values, in the same order. -/
def Bindings.rekey {α β : Type} (k : String ↪ String) (f : α → β) (b : Bindings α) :
    Bindings β where
  entries := b.entries.map fun e => (k e.1, f e.2)
  nodup := by
    have hnames := b.nodup.map k.injective
    rw [List.map_map] at hnames ⊢
    exact hnames

def Scope.rekey {α β : Type} (k : String ↪ String) (f : α → β) (s : Scope α) : Scope β :=
  ⟨s.own.rekey k f, s.outer.map (·.rekey k f)⟩

section Rekey

variable {α β : Type} (k : String ↪ String) (f : α → β)

lemma Bindings.entries_rekey (b : Bindings α) :
    (b.rekey k f).entries = b.entries.map fun e => (k e.1, f e.2) := rfl

@[simp] lemma Bindings.get?_rekey (b : Bindings α) (name : String) :
    (b.rekey k f).get? (k name) = (b.get? name).map f := by
  rw [get?, get?, entries_rekey]
  induction b.entries with
  | nil => rfl
  | cons e es ih =>
    have hkey : (k name == k e.1) = (name == e.1) := beq_eq_beq.2 k.injective.eq_iff
    rw [List.map_cons, List.lookup_cons, List.lookup_cons, hkey, ih]
    cases name == e.1 <;> rfl

@[simp] lemma Bindings.values_rekey (b : Bindings α) : (b.rekey k f).values = b.values.map f := by
  simp [values, entries_rekey]

@[simp] lemma Bindings.size_rekey (b : Bindings α) : (b.rekey k f).size = b.size := by
  simp [size, entries_rekey]

lemma Scope.layers_rekey (s : Scope α) : (s.rekey k f).layers = s.layers.map (·.rekey k f) := rfl

@[simp] lemma Scope.get?_rekey (s : Scope α) (name : String) :
    (s.rekey k f).get? (k name) = (s.get? name).map f := by
  rw [get?, get?, layers_rekey, List.findSome?_map, List.map_findSome?]
  congr 1
  funext b
  exact b.get?_rekey k f name

@[simp] lemma Scope.size_rekey (s : Scope α) : (s.rekey k f).size = s.size := by
  simp [size, layers_rekey, Bindings.entries_rekey, List.length_flatMap, Function.comp_def]

end Rekey

namespace Renaming

variable (ρ : Renaming)

/-! ### What is known -/

def vars (b : Bindings Ty) : Bindings Ty := b.rekey ρ.var ρ.ty

def origin : Origin → Origin
  | .declared id line => .declared id (ρ.line line)
  | .synthetic number => .synthetic number

def methodInfo (m : MethodInfo) : MethodInfo :=
  ⟨ρ.method m.name, ρ.ty m.returnType, ρ.origin m.origin, ρ.vars m.params, ρ.vars m.locals⟩

def classInfo (c : ClassInfo) : ClassInfo :=
  ⟨ρ.className c.name, c.superName.map ρ.className, ρ.origin c.origin, ρ.vars c.fields,
    c.methods.rekey ρ.method ρ.methodInfo⟩

def hierarchy (h : Hierarchy) : Hierarchy := Scope.rekey ρ.className ρ.classInfo h

def scope (s : Scope Ty) : Scope Ty := s.rekey ρ.var ρ.ty

def context (ctx : Context) : Context := ⟨ρ.classInfo ctx.owner, ⟨ctx.env.scopes.map ρ.scope⟩⟩

lemma paramTypes_methodInfo (m : MethodInfo) :
    (ρ.methodInfo m).paramTypes = m.paramTypes.map ρ.ty :=
  Bindings.values_rekey _ _ _

variable (h : Hierarchy) (ctx : Context)

lemma get?_hierarchy (name : String) :
    (ρ.hierarchy h).get? (ρ.className name) = (h.get? name).map ρ.classInfo :=
  Scope.get?_rekey _ _ _ _

@[simp] lemma isSome_get?_hierarchy (name : String) :
    ((ρ.hierarchy h).get? (ρ.className name)).isSome = (h.get? name).isSome := by
  rw [get?_hierarchy, Option.isSome_map]

lemma superclass?_hierarchy (c : ClassInfo) :
    (ρ.hierarchy h).superclass? (ρ.classInfo c) = (h.superclass? c).map ρ.classInfo := by
  rw [Hierarchy.superclass?, Hierarchy.superclass?, classInfo]
  cases c.superName with
  | none => rfl
  | some s => exact ρ.get?_hierarchy h s

/-- Walks go the same way: a name was seen if and only if the new name was. -/
lemma walkFor_hierarchy (fuel : Nat) (seen : List String) (start : Option ClassInfo) :
    (ρ.hierarchy h).walkFor fuel (seen.map ρ.className) (start.map ρ.classInfo) =
      (h.walkFor fuel seen start).map ρ.classInfo := by
  induction fuel generalizing seen start with
  | zero => rfl
  | succ fuel ih =>
    cases start with
    | none => rfl
    | some c =>
      have hseen : (ρ.classInfo c).name ∈ seen.map ρ.className ↔ c.name ∈ seen :=
        List.mem_map_of_injective ρ.className.injective
      have hnext := ih (c.name :: seen) (h.superclass? c)
      rw [Option.map_some, Hierarchy.walkFor_succ_some, Hierarchy.walkFor_succ_some,
        superclass?_hierarchy]
      by_cases hc : c.name ∈ seen
      · rw [if_pos (hseen.2 hc), if_pos hc, List.map_nil]
      · rw [if_neg (mt hseen.1 hc), if_neg hc, List.map_cons, ← hnext]
        rfl

lemma walk_hierarchy (seen : List String) (start : Option ClassInfo) :
    (ρ.hierarchy h).walk (seen.map ρ.className) (start.map ρ.classInfo) =
      (h.walk seen start).map ρ.classInfo := by
  have hsize : (ρ.hierarchy h).size = h.size := Scope.size_rekey _ _ _
  rw [Hierarchy.walk, Hierarchy.walk, hsize, walkFor_hierarchy]

@[simp] lemma ancestors_hierarchy (c : ClassInfo) :
    (ρ.hierarchy h).ancestors (ρ.classInfo c) = (h.ancestors c).map ρ.classInfo := by
  rw [Hierarchy.ancestors, superclass?_hierarchy]
  exact ρ.walk_hierarchy h [c.name] _

lemma any_name_classInfo (cs : List ClassInfo) (name : String) :
    (cs.map ρ.classInfo).any (·.name == ρ.className name) = cs.any (·.name == name) := by
  rw [List.any_map]
  congr 1
  funext c
  exact beq_eq_beq.2 ρ.className.injective.eq_iff

@[simp] lemma onCycle_hierarchy (c : ClassInfo) :
    (ρ.hierarchy h).onCycle (ρ.classInfo c) = h.onCycle c := by
  have hwalk := ρ.walk_hierarchy h [] (h.superclass? c)
  rw [List.map_nil] at hwalk
  rw [Hierarchy.onCycle, superclass?_hierarchy, hwalk]
  exact ρ.any_name_classInfo _ _

lemma derivesFrom_hierarchy (a b : String) :
    (ρ.hierarchy h).derivesFrom (ρ.className a) (ρ.className b) = h.derivesFrom a b := by
  have heq : (ρ.className a == ρ.className b) = (a == b) :=
    beq_eq_beq.2 ρ.className.injective.eq_iff
  rw [Hierarchy.derivesFrom, Hierarchy.derivesFrom, heq, get?_hierarchy]
  cases h.get? a with
  | none => rfl
  | some c =>
    have habove := ρ.any_name_classInfo (h.ancestors c) b
    rw [← ancestors_hierarchy] at habove
    exact congrArg _ habove

@[simp] lemma settled_hierarchy (t : Ty) :
    (ρ.hierarchy h).settled (ρ.ty t) = ρ.ty (h.settled t) := by
  cases t with
  | object c => cases hc : h.get? c <;> simp [ty, Hierarchy.settled, hc]
  | _ => rfl

@[simp] lemma fits_hierarchy (s t : Ty) : (ρ.hierarchy h).fits (ρ.ty s) (ρ.ty t) = h.fits s t := by
  have hassign : ∀ s t, (ρ.hierarchy h).assignable (ρ.ty s) (ρ.ty t) = h.assignable s t := by
    intro s t
    cases s <;> cases t <;>
      simp [ty, Hierarchy.assignable, derivesFrom_hierarchy]
  rw [Hierarchy.fits, Hierarchy.fits, settled_hierarchy, settled_hierarchy, hassign]

lemma findSome?_methods (cs : List ClassInfo) (method : String) :
    (cs.map ρ.classInfo).findSome? (·.methods.get? (ρ.method method)) =
      (cs.findSome? (·.methods.get? method)).map ρ.methodInfo := by
  rw [List.findSome?_map, List.map_findSome?]
  congr 1
  funext c
  exact c.methods.get?_rekey ρ.method ρ.methodInfo method

lemma findMethod?_hierarchy (className method : String) :
    (ρ.hierarchy h).findMethod? (ρ.className className) (ρ.method method) =
      (h.findMethod? className method).map ρ.methodInfo := by
  rw [Hierarchy.findMethod?_eq, Hierarchy.findMethod?_eq, get?_hierarchy]
  cases h.get? className with
  | none => rfl
  | some c =>
    have habove := ρ.findSome?_methods (c :: h.ancestors c) method
    simpa using habove

lemma resolve_context (name : String) :
    (ρ.context ctx).env.resolve (ρ.var name) = (ctx.env.resolve name).map ρ.ty := by
  simp only [Env.resolve, Env.resolveBy, context, List.findSome?_map, List.map_findSome?]
  congr 1
  funext s
  simp [scope]

lemma fieldsBelow_classInfo (c : ClassInfo) (above : List ClassInfo) :
    (ρ.classInfo c).fieldsBelow (above.map ρ.classInfo) = (c.fieldsBelow above).map ρ.scope := by
  rw [ClassInfo.fieldsBelow, ClassInfo.fieldsBelow, ← List.map_cons, ← List.map_reverse,
    List.map_map, List.map_map]
  rfl

end Renaming

end MiniJava
