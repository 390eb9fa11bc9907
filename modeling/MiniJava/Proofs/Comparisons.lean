import MiniJava.Proofs.Acceptance

/-!
# Comparisons of types

Checking code comes down to comparing types: that of an operand with the one wanted there, that of
an argument with its parameter, that of a value with the variable it is assigned to. The comparisons
are listed here in the order in which they are made. Those that fail are told, and no other mismatch
is.
-/

namespace MiniJava

/-- A type and the one that it should fit. -/
structure Comparison where
  actual : Ty
  expected : Ty
deriving DecidableEq, Repr

/-- The comparison that a diagnostic says has failed. -/
def Diagnostic.comparison? (d : Diagnostic) : Option Comparison :=
  match d.issue with
  | .typeMismatch expected actual => some ⟨actual, expected⟩
  | .argumentTypeMismatch _ _ expected actual => some ⟨actual, expected⟩
  | .assignmentTypeMismatch _ expected actual => some ⟨actual, expected⟩
  | .conditionTypeMismatch actual => some ⟨actual, .boolean⟩
  | _ => none

/-- The arguments of a call against the parameters of the method, if one is found that takes so
many. -/
def callComparisons (h : Hierarchy) (receiver : Ty) (method : String) (args : List Ty) :
    List Comparison :=
  match h.settled receiver with
  | .object c =>
    match h.findMethod? c method with
    | none => []
    | some m =>
      if m.params.size = args.length then List.zipWith Comparison.mk args m.paramTypes else []
  | _ => []

mutual

/-- The comparisons in an expression, in the order in which they are made. -/
def Expr.comparisons (h : Hierarchy) (ctx : Context) : Expr → List Comparison
  | .unary .not operand _ => operand.comparisons h ctx ++ [⟨(operand.infer h ctx).1, .boolean⟩]
  | .binary op lhs rhs _ =>
    lhs.comparisons h ctx ++ [⟨(lhs.infer h ctx).1, op.operand⟩] ++
      (rhs.comparisons h ctx ++ [⟨(rhs.infer h ctx).1, op.operand⟩])
  | .arrayLookup array index _ =>
    array.comparisons h ctx ++ [⟨(array.infer h ctx).1, .intArray⟩] ++
      (index.comparisons h ctx ++ [⟨(index.infer h ctx).1, .int⟩])
  | .arrayLength array _ => array.comparisons h ctx ++ [⟨(array.infer h ctx).1, .intArray⟩]
  | .call receiver method args _ =>
    receiver.comparisons h ctx ++ Expr.comparisonsAll h ctx args ++
      callComparisons h (receiver.infer h ctx).1 method (args.map fun a => (a.infer h ctx).1)
  | .newArray size _ => size.comparisons h ctx ++ [⟨(size.infer h ctx).1, .int⟩]
  | .newObject _ _ | .this _ | .identifier _ _ | .intLiteral _ _ | .boolLiteral _ _ => []
termination_by structural e => e

def Expr.comparisonsAll (h : Hierarchy) (ctx : Context) : List Expr → List Comparison
  | [] => []
  | e :: es => e.comparisons h ctx ++ Expr.comparisonsAll h ctx es
termination_by structural es => es

end

@[simp] lemma Expr.comparisonsAll_eq_flatMap (h : Hierarchy) (ctx : Context) (es : List Expr) :
    Expr.comparisonsAll h ctx es = es.flatMap (Expr.comparisons h ctx) := by
  induction es with
  | nil => rfl
  | cons e es ih => simp [Expr.comparisonsAll, ih]

/-- The comparisons of an expression that is to have type `t`. -/
def Expr.comparisonsAs (h : Hierarchy) (ctx : Context) (t : Ty) (e : Expr) : List Comparison :=
  e.comparisons h ctx ++ [⟨(e.infer h ctx).1, t⟩]

/-- A variable is compared if there is one of that name. -/
def Context.comparisonOf (ctx : Context) (h : Hierarchy) (name : String)
    (compare : Ty → Comparison) : List Comparison :=
  match ctx.env.resolve name with
  | none => []
  | some t => [compare (h.settled t)]

mutual

def Stmt.comparisons (h : Hierarchy) (ctx : Context) : Stmt → List Comparison
  | .block body _ => Stmt.comparisonsAll h ctx body
  | .branch cond yes no _ =>
    cond.comparisonsAs h ctx .boolean ++ yes.comparisons h ctx ++ no.comparisons h ctx
  | .loop cond body _ => cond.comparisonsAs h ctx .boolean ++ body.comparisons h ctx
  | .print value _ => value.comparisonsAs h ctx .int
  | .assign name value _ =>
    value.comparisons h ctx ++ ctx.comparisonOf h name fun t => ⟨(value.infer h ctx).1, t⟩
  | .assignAt name index value _ =>
    ctx.comparisonOf h name (fun t => ⟨t, .intArray⟩) ++ index.comparisonsAs h ctx .int ++
      value.comparisonsAs h ctx .int
termination_by structural s => s

def Stmt.comparisonsAll (h : Hierarchy) (ctx : Context) : List Stmt → List Comparison
  | [] => []
  | s :: ss => s.comparisons h ctx ++ Stmt.comparisonsAll h ctx ss
termination_by structural ss => ss

end

@[simp] lemma Stmt.comparisonsAll_eq_flatMap (h : Hierarchy) (ctx : Context) (ss : List Stmt) :
    Stmt.comparisonsAll h ctx ss = ss.flatMap (Stmt.comparisons h ctx) := by
  induction ss with
  | nil => rfl
  | cons s ss ih => simp [Stmt.comparisonsAll, ih]

def MethodDecl.comparisons (h : Hierarchy) (ctx : Context) (d : MethodDecl) : List Comparison :=
  d.body.flatMap (Stmt.comparisons h ctx) ++ d.result.comparisonsAs h ctx d.returnType.ty

/-- The comparisons in the code of a program without repeated names. -/
def Program.comparisons (p : Program) : List Comparison :=
  p.main.body.comparisons p.hierarchy p.mainContext ++
    p.classes.flatMap fun c => c.methods.flatMap fun m =>
      m.comparisons p.hierarchy (p.methodContext c m)

/-! ### Failed comparisons are told -/

section Told

variable {h : Hierarchy} {ctx : Context}

/-- The comparisons that do not pass. -/
def Comparison.failed (h : Hierarchy) (cs : List Comparison) : List Comparison :=
  cs.filter fun c => h.fits c.actual c.expected = false

lemma Comparison.failed_append (cs ds : List Comparison) :
    failed h (cs ++ ds) = failed h cs ++ failed h ds :=
  List.filter_append _ _

lemma Comparison.failed_flatMap {α : Type} (f : α → List Comparison) (xs : List α) :
    failed h (xs.flatMap f) = xs.flatMap fun x => failed h (f x) :=
  List.filter_flatMap

/-- One comparison, told as an issue that says so. -/
lemma comparison?_single {c : Comparison} {d : Diagnostic} (hd : d.comparison? = some c) :
    (if h.fits c.actual c.expected then [] else [d]).filterMap Diagnostic.comparison? =
      Comparison.failed h [c] := by
  cases hfit : h.fits c.actual c.expected <;> simp [Comparison.failed, hfit, hd]

lemma comparison?_expecting (t : Ty) (line : Line) (r : Ty × List Diagnostic) :
    (expecting h t line r).filterMap Diagnostic.comparison? =
      r.2.filterMap Diagnostic.comparison? ++ Comparison.failed h [⟨r.1, t⟩] := by
  rw [expecting, List.filterMap_append]
  congr 1
  exact comparison?_single (c := ⟨r.1, t⟩) rfl

lemma comparison?_judgeArgs (method : String) (pos : Nat) (args : List (Ty × Line))
    (params : List Ty) : (judgeArgs h method pos args params).filterMap Diagnostic.comparison? =
      Comparison.failed h (List.zipWith Comparison.mk (args.map Prod.fst) params) := by
  induction args generalizing pos params with
  | nil => rfl
  | cons a args ih =>
    cases params with
    | nil => rfl
    | cons t params =>
      have hhead := comparison?_single (h := h) (c := ⟨a.1, t⟩)
        (d := ⟨.argumentTypeMismatch method pos t a.1, a.2⟩) rfl
      rw [judgeArgs, List.filterMap_append, ih, List.map_cons, List.zipWith_cons_cons, hhead,
        ← Comparison.failed_append, List.singleton_append]

lemma comparison?_judgeCall (receiver : Ty) (receiverLine line : Line) (method : String)
    (args : List (Ty × Line)) :
    (judgeCall h receiver receiverLine method args line).2.filterMap Diagnostic.comparison? =
      Comparison.failed h (callComparisons h receiver method (args.map Prod.fst)) := by
  unfold judgeCall callComparisons
  cases h.settled receiver with
  | object c =>
    cases hm : h.findMethod? c method with
    | none => simp [hm, Diagnostic.comparison?, Comparison.failed]
    | some m =>
      by_cases hsize : m.params.size = args.length
      · simp [hm, hsize, comparison?_judgeArgs]
      · simp [hm, hsize, Diagnostic.comparison?, Comparison.failed]
  | _ => simp [Diagnostic.comparison?, Comparison.failed]

/-- In every hierarchy and context, the failed comparisons in an expression are told, and no other
mismatch is. -/
theorem comparison?_infer (h : Hierarchy) (ctx : Context) (e : Expr) :
    (e.infer h ctx).2.filterMap Diagnostic.comparison? =
      Comparison.failed h (e.comparisons h ctx) := by
  induction e using Expr.induction with
  | unary op e line ih =>
    cases op
    rw [Expr.infer, comparison?_expecting, ih, ← Comparison.failed_append, Expr.comparisons]
  | binary op l r line ihl ihr =>
    rw [Expr.infer, List.filterMap_append, comparison?_expecting, comparison?_expecting, ihl, ihr]
    simp only [← Comparison.failed_append, Expr.comparisons]
  | arrayLookup a i line iha ihi =>
    rw [Expr.infer, List.filterMap_append, comparison?_expecting, comparison?_expecting, iha, ihi]
    simp only [← Comparison.failed_append, Expr.comparisons]
  | arrayLength a line ih =>
    rw [Expr.infer, comparison?_expecting, ih, ← Comparison.failed_append, Expr.comparisons]
  | call e m args line ihe ihargs =>
    have hargs : (args.flatMap fun a => (a.infer h ctx).2).filterMap Diagnostic.comparison? =
        Comparison.failed h (args.flatMap (Expr.comparisons h ctx)) := by
      rw [List.filterMap_flatMap, Comparison.failed_flatMap]
      exact List.flatMap_congr ihargs
    rw [infer_call, List.filterMap_append, List.filterMap_append, comparison?_judgeCall, ihe, hargs,
      Expr.comparisons, Expr.comparisonsAll_eq_flatMap, Comparison.failed_append,
      Comparison.failed_append, List.map_map]
    rfl
  | newArray n line ih =>
    rw [Expr.infer, comparison?_expecting, ih, ← Comparison.failed_append, Expr.comparisons]
  | newObject c line =>
    rw [Expr.infer, Expr.comparisons]
    cases (h.get? c).isSome <;> rfl
  | this line => rfl
  | identifier x line =>
    rw [Expr.infer, Expr.comparisons, Context.typeOf]
    cases ctx.env.resolve x <;> rfl
  | intLiteral n line => rfl
  | boolLiteral b line => rfl

lemma comparison?_checkAs (h : Hierarchy) (ctx : Context) (t : Ty) (e : Expr) :
    (e.checkAs h ctx t).filterMap Diagnostic.comparison? =
      Comparison.failed h (e.comparisonsAs h ctx t) := by
  rw [Expr.checkAs, comparison?_expecting, comparison?_infer, ← Comparison.failed_append,
    Expr.comparisonsAs]

lemma comparison?_checkAsCondition (e : Expr) :
    (e.checkAsCondition h ctx).filterMap Diagnostic.comparison? =
      Comparison.failed h (e.comparisonsAs h ctx .boolean) := by
  have hcond := comparison?_single (h := h) (c := ⟨(e.infer h ctx).1, .boolean⟩)
    (d := ⟨.conditionTypeMismatch (e.infer h ctx).1, e.line⟩) rfl
  rw [Expr.checkAsCondition, List.filterMap_append, comparison?_infer, hcond,
    ← Comparison.failed_append, Expr.comparisonsAs]

lemma comparison?_checkAssign (x : String) (e : Expr) (line : Line) :
    (checkAssign h ctx x e line).filterMap Diagnostic.comparison? = Comparison.failed h
      (e.comparisons h ctx ++ ctx.comparisonOf h x fun t => ⟨(e.infer h ctx).1, t⟩) := by
  rw [Comparison.failed_append, ← comparison?_infer, checkAssign, Context.typeOf,
    Context.comparisonOf]
  cases ctx.env.resolve x with
  | none => exact (List.append_nil _).symm
  | some t =>
    have hvalue := comparison?_single (h := h) (c := ⟨(e.infer h ctx).1, h.settled t⟩)
      (d := ⟨.assignmentTypeMismatch x (h.settled t) (e.infer h ctx).1, line⟩) rfl
    rw [← hvalue, ← List.filterMap_append]

lemma comparison?_checkAssignAt (x : String) (i e : Expr) (line : Line) :
    (checkAssignAt h ctx x i e line).filterMap Diagnostic.comparison? = Comparison.failed h
      (ctx.comparisonOf h x (fun t => ⟨t, .intArray⟩) ++ i.comparisonsAs h ctx .int ++
        e.comparisonsAs h ctx .int) := by
  rw [checkAssignAt, List.filterMap_append, List.filterMap_append, comparison?_checkAs,
    comparison?_checkAs, Comparison.failed_append, Comparison.failed_append, Context.typeOf,
    Context.comparisonOf]
  congr 2
  cases ctx.env.resolve x with
  | none => rfl
  | some t => exact comparison?_single (c := ⟨h.settled t, .intArray⟩) rfl

theorem comparison?_check (h : Hierarchy) (ctx : Context) (s : Stmt) :
    (s.check h ctx).filterMap Diagnostic.comparison? =
      Comparison.failed h (s.comparisons h ctx) := by
  induction s using Stmt.induction with
  | block body line ih =>
    rw [Stmt.check, Stmt.checkAll_eq_flatMap, List.filterMap_flatMap, Stmt.comparisons,
      Stmt.comparisonsAll_eq_flatMap, Comparison.failed_flatMap]
    exact List.flatMap_congr ih
  | branch cond yes no line ihy ihn =>
    rw [Stmt.check, List.filterMap_append, List.filterMap_append, comparison?_checkAsCondition, ihy,
      ihn, Stmt.comparisons, Comparison.failed_append, Comparison.failed_append]
  | loop cond body line ih =>
    rw [Stmt.check, List.filterMap_append, comparison?_checkAsCondition, ih, Stmt.comparisons,
      Comparison.failed_append]
  | print e line => exact comparison?_checkAs h ctx .int e
  | assign x e line => exact comparison?_checkAssign x e line
  | assignAt x i e line => exact comparison?_checkAssignAt x i e line

lemma comparison?_checkBody (h : Hierarchy) (ctx : Context) (d : MethodDecl) :
    (d.checkBody h ctx d.info.1).filterMap Diagnostic.comparison? =
      Comparison.failed h (d.comparisons h ctx) := by
  have hresult := comparison?_checkAs h ctx d.returnType.ty d.result
  rw [MethodDecl.checkBody, List.filterMap_append, Stmt.checkAll_eq_flatMap,
    List.filterMap_flatMap, MethodDecl.comparisons, Comparison.failed_append, ← hresult,
    Comparison.failed_flatMap]
  congr 1
  exact List.flatMap_congr fun s _ => comparison?_check h ctx s

end Told

end MiniJava
