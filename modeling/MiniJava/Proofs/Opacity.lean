import MiniJava.Proofs.Acceptance
import MiniJava.Proofs.FirstWins
import MiniJava.Proofs.Renaming

/-!
# Names and lines are opaque

A check compares names with each other and nothing else, apart from the name `main`, and it only
hands lines on. So a renamed program is checked like the program itself: the code gets the renamed
types and diagnostics, and the collection tells of the same declarations.
-/

namespace MiniJava

/-- The kind of a diagnostic and its line. -/
def Diagnostic.outline (d : Diagnostic) : Kind × Line := (d.issue.kind, d.line)

namespace Renaming

variable (ρ : Renaming)

/-! ### What is told -/

/-- A name that is declared twice may be that of a class, a method or a variable. The issue does not
say which, so here it stays. -/
def issue : Issue → Issue
  | .duplicateDefinition name => .duplicateDefinition name
  | .undefinedIdentifier name => .undefinedIdentifier (ρ.var name)
  | .undefinedClass name => .undefinedClass (ρ.className name)
  | .undefinedMethod className method => .undefinedMethod (ρ.className className) (ρ.method method)
  | .arityMismatch method expected actual => .arityMismatch (ρ.method method) expected actual
  | .argumentTypeMismatch method position expected actual =>
    .argumentTypeMismatch (ρ.method method) position (ρ.ty expected) (ρ.ty actual)
  | .typeMismatch expected actual => .typeMismatch (ρ.ty expected) (ρ.ty actual)
  | .notAnObject actual => .notAnObject (ρ.ty actual)
  | .assignmentTypeMismatch name expected actual =>
    .assignmentTypeMismatch (ρ.var name) (ρ.ty expected) (ρ.ty actual)
  | .conditionTypeMismatch actual => .conditionTypeMismatch (ρ.ty actual)
  | .invalidOverride className method => .invalidOverride (ρ.className className) (ρ.method method)
  | .cyclicInheritance className => .cyclicInheritance (ρ.className className)

def diagnostic (d : Diagnostic) : Diagnostic := ⟨ρ.issue d.issue, ρ.line d.line⟩

/-- A type and the diagnostics that were found with it. -/
def typing (r : Ty × List Diagnostic) : Ty × List Diagnostic := (ρ.ty r.1, r.2.map ρ.diagnostic)

/-- What is told of the items of a list one by one. -/
lemma flatMap_diagnostic {δ ε : Type} {r : δ → ε} {told : δ → List Diagnostic}
    {told' : ε → List Diagnostic} {ds : List δ}
    (htold : ∀ d ∈ ds, told' (r d) = (told d).map ρ.diagnostic) :
    (ds.map r).flatMap told' = (ds.flatMap told).map ρ.diagnostic := by
  rw [List.flatMap_map, List.map_flatMap]
  exact List.flatMap_congr htold

/-! ### Code -/

variable (h : Hierarchy) (ctx : Context)

lemma expecting_typing (expected : Ty) (line : Line) (r : Ty × List Diagnostic) :
    expecting (ρ.hierarchy h) (ρ.ty expected) (ρ.line line) (ρ.typing r) =
      (expecting h expected line r).map ρ.diagnostic := by
  rw [expecting, expecting, typing, fits_hierarchy, List.map_append]
  cases h.fits r.1 expected <;> rfl

lemma judgeArgs_hierarchy (method : String) (pos : Nat) (args : List (Ty × Line))
    (params : List Ty) :
    judgeArgs (ρ.hierarchy h) (ρ.method method) pos (args.map (Prod.map ρ.ty ρ.line))
        (params.map ρ.ty) = (judgeArgs h method pos args params).map ρ.diagnostic := by
  induction args generalizing pos params with
  | nil => rfl
  | cons a args ih =>
    cases params with
    | nil => rfl
    | cons t params =>
      rw [List.map_cons, List.map_cons, Prod.map, judgeArgs, judgeArgs, ih, fits_hierarchy,
        List.map_append]
      cases h.fits a.1 t <;> rfl

lemma judgeCall_hierarchy (receiver : Ty) (receiverLine line : Line) (method : String)
    (args : List (Ty × Line)) :
    judgeCall (ρ.hierarchy h) (ρ.ty receiver) (ρ.line receiverLine) (ρ.method method)
        (args.map (Prod.map ρ.ty ρ.line)) (ρ.line line) =
      ρ.typing (judgeCall h receiver receiverLine method args line) := by
  rw [judgeCall, judgeCall, settled_hierarchy]
  cases h.settled receiver with
  | object c =>
    simp only [ty, findMethod?_hierarchy]
    cases h.findMethod? c method with
    | none => rfl
    | some m =>
      have hsize : (ρ.methodInfo m).params.size = m.params.size := Bindings.size_rekey _ _ _
      have hreturn : (ρ.methodInfo m).returnType = ρ.ty m.returnType := rfl
      simp only [Option.map_some, hsize, List.length_map, paramTypes_methodInfo, hreturn,
        judgeArgs_hierarchy, settled_hierarchy]
      split <;> rfl
  | _ => rfl

lemma typeOf_context (name : String) (line : Line) :
    (ρ.context ctx).typeOf (ρ.hierarchy h) (ρ.var name) (ρ.line line) =
      match ctx.typeOf h name line with
      | .ok t => .ok (ρ.ty t)
      | .error d => .error (ρ.diagnostic d) := by
  rw [Context.typeOf, Context.typeOf, resolve_context]
  cases ctx.env.resolve name with
  | none => rfl
  | some t => exact congrArg _ (ρ.settled_hierarchy h t)

/-- A renamed expression has the renamed type and the renamed diagnostics. -/
theorem infer_expr (e : Expr) :
    (ρ.expr e).infer (ρ.hierarchy h) (ρ.context ctx) = ρ.typing (e.infer h ctx) := by
  induction e using Expr.induction with
  | unary op e line ih =>
    cases op
    rw [expr, Expr.infer, Expr.infer, ih, line_expr]
    exact Prod.ext rfl (ρ.expecting_typing h .boolean _ _)
  | binary op l r line ihl ihr =>
    have hresult : ρ.ty op.result = op.result := by cases op <;> rfl
    have hoperand : ρ.ty op.operand = op.operand := by cases op <;> rfl
    have hleft := ρ.expecting_typing h op.operand l.line (l.infer h ctx)
    have hright := ρ.expecting_typing h op.operand r.line (r.infer h ctx)
    rw [hoperand] at hleft hright
    rw [expr, Expr.infer, Expr.infer, ihl, ihr, line_expr, line_expr, hleft, hright, typing,
      hresult, List.map_append]
  | arrayLookup a i line iha ihi =>
    have harray := ρ.expecting_typing h .intArray a.line (a.infer h ctx)
    have hindex := ρ.expecting_typing h .int i.line (i.infer h ctx)
    rw [ty_intArray] at harray
    rw [ty_int] at hindex
    rw [expr, Expr.infer, Expr.infer, iha, ihi, line_expr, line_expr, harray, hindex, typing,
      ty_int, List.map_append]
  | arrayLength a line ih =>
    rw [expr, Expr.infer, Expr.infer, ih, line_expr]
    exact Prod.ext rfl (ρ.expecting_typing h .intArray _ _)
  | call e m args line ihe ihargs =>
    have hjudged : (args.map ρ.expr).map
          (fun a => ((a.infer (ρ.hierarchy h) (ρ.context ctx)).1, a.line)) =
        (args.map fun a => ((a.infer h ctx).1, a.line)).map (Prod.map ρ.ty ρ.line) := by
      rw [List.map_map, List.map_map]
      apply List.map_congr_left
      intro a ha
      simp [ihargs a ha, typing]
    have htold : ((args.map ρ.expr).flatMap
          fun a => (a.infer (ρ.hierarchy h) (ρ.context ctx)).2) =
        (args.flatMap fun a => (a.infer h ctx).2).map ρ.diagnostic := by
      apply ρ.flatMap_diagnostic
      intro a ha
      rw [ihargs a ha, typing]
    rw [expr, exprs_eq_map, infer_call, infer_call, hjudged, htold, ihe, line_expr]
    simp only [typing, judgeCall_hierarchy, List.map_append]
  | newArray n line ih =>
    rw [expr, Expr.infer, Expr.infer, ih, line_expr]
    exact Prod.ext rfl (ρ.expecting_typing h .int _ _)
  | newObject c line =>
    rw [expr, Expr.infer, Expr.infer, isSome_get?_hierarchy]
    cases (h.get? c).isSome <;> rfl
  | this line => rfl
  | identifier x line =>
    rw [expr, Expr.infer, Expr.infer, typeOf_context]
    cases ctx.typeOf h x line <;> rfl
  | intLiteral n line => rfl
  | boolLiteral b line => rfl

lemma checkAs_expr (expected : Ty) (e : Expr) :
    (ρ.expr e).checkAs (ρ.hierarchy h) (ρ.context ctx) (ρ.ty expected) =
      (e.checkAs h ctx expected).map ρ.diagnostic := by
  rw [Expr.checkAs, infer_expr, line_expr, expecting_typing, Expr.checkAs]

lemma checkAsCondition_expr (e : Expr) :
    (ρ.expr e).checkAsCondition (ρ.hierarchy h) (ρ.context ctx) =
      (e.checkAsCondition h ctx).map ρ.diagnostic := by
  have hfits := ρ.fits_hierarchy h (e.infer h ctx).1 .boolean
  rw [ty_boolean] at hfits
  simp only [Expr.checkAsCondition, infer_expr, line_expr, typing, hfits, List.map_append]
  cases h.fits (e.infer h ctx).1 .boolean <;> rfl

lemma checkAssign_context (x : String) (e : Expr) (line : Line) :
    checkAssign (ρ.hierarchy h) (ρ.context ctx) (ρ.var x) (ρ.expr e) (ρ.line line) =
      (checkAssign h ctx x e line).map ρ.diagnostic := by
  rw [checkAssign, checkAssign, typeOf_context, infer_expr]
  cases ctx.typeOf h x line with
  | error d => rfl
  | ok t =>
    simp only [typing, fits_hierarchy, List.map_append]
    cases h.fits (e.infer h ctx).1 t <;> rfl

lemma checkAssignAt_context (x : String) (i e : Expr) (line : Line) :
    checkAssignAt (ρ.hierarchy h) (ρ.context ctx) (ρ.var x) (ρ.expr i) (ρ.expr e) (ρ.line line) =
      (checkAssignAt h ctx x i e line).map ρ.diagnostic := by
  have hindex := ρ.checkAs_expr h ctx .int i
  have hvalue := ρ.checkAs_expr h ctx .int e
  rw [ty_int] at hindex hvalue
  rw [checkAssignAt, checkAssignAt, typeOf_context, hindex, hvalue, List.map_append,
    List.map_append]
  cases ctx.typeOf h x line with
  | error d => rfl
  | ok t =>
    have hfits := ρ.fits_hierarchy h t .intArray
    rw [ty_intArray] at hfits
    simp only [hfits]
    cases h.fits t .intArray <;> rfl

theorem check_stmt (s : Stmt) :
    (ρ.stmt s).check (ρ.hierarchy h) (ρ.context ctx) = (s.check h ctx).map ρ.diagnostic := by
  induction s using Stmt.induction with
  | block body line ih =>
    rw [stmt, stmts_eq_map, Stmt.check, Stmt.check, Stmt.checkAll_eq_flatMap,
      Stmt.checkAll_eq_flatMap]
    exact ρ.flatMap_diagnostic ih
  | branch cond yes no line ihy ihn =>
    rw [stmt, Stmt.check, Stmt.check, checkAsCondition_expr, ihy, ihn, List.map_append,
      List.map_append]
  | loop cond body line ih =>
    rw [stmt, Stmt.check, Stmt.check, checkAsCondition_expr, ih, List.map_append]
  | print e line => exact ρ.checkAs_expr h ctx .int e
  | assign x e line => exact ρ.checkAssign_context h ctx x e line
  | assignAt x i e line => exact ρ.checkAssignAt_context h ctx x i e line

/-! ### Declarations -/

lemma isDecl_origin (o : Origin) (id : Nat) : (ρ.origin o).isDecl id = o.isDecl id := by
  cases o <;> rfl

lemma lineOr_origin (o : Origin) (line : Line) :
    (ρ.origin o).lineOr (ρ.line line) = ρ.line (o.lineOr line) := by
  cases o <;> rfl

lemma agreesWith_methodInfo (m n : MethodInfo) :
    (ρ.methodInfo m).agreesWith (ρ.methodInfo n) = m.agreesWith n := by
  have hparams : m.paramTypes.map ρ.ty = n.paramTypes.map ρ.ty ↔ m.paramTypes = n.paramTypes :=
    (List.map_injective_iff.2 ρ.ty_injective).eq_iff
  have hreturn : (ρ.methodInfo m).returnType = (ρ.methodInfo n).returnType ↔
      m.returnType = n.returnType := ρ.ty_injective.eq_iff
  simp only [MethodInfo.agreesWith, paramTypes_methodInfo, hparams, hreturn]

lemma undeclared_hierarchy (t : Ty) (line : Line) :
    (ρ.hierarchy h).undeclared (ρ.ty t) (ρ.line line) = (h.undeclared t line).map ρ.diagnostic := by
  cases t with
  | object c =>
    rw [ty, Hierarchy.undeclared, Hierarchy.undeclared, isSome_get?_hierarchy]
    cases (h.get? c).isSome <;> rfl
  | _ => rfl

lemma undeclared_vars (ds : List VarDecl) :
    (ds.map ρ.varDecl).flatMap (·.undeclared (ρ.hierarchy h)) =
      (ds.flatMap (·.undeclared h)).map ρ.diagnostic := by
  apply ρ.flatMap_diagnostic
  intro d _
  rw [VarDecl.undeclared, ty_varDecl]
  exact ρ.undeclared_hierarchy h d.ty d.line

lemma inClass_context :
    ρ.context (ctx.inClass h) = (ρ.context ctx).inClass (ρ.hierarchy h) := by
  let fields := ctx.owner.fieldsBelow (h.ancestors ctx.owner)
  have hfields : (ρ.classInfo ctx.owner).fieldsBelow
      ((ρ.hierarchy h).ancestors (ρ.classInfo ctx.owner)) = fields.map ρ.scope := by
    rw [ancestors_hierarchy, fieldsBelow_classInfo]
  have hscopes : ((ρ.context ctx).env.enterAll (fields.map ρ.scope)).scopes =
      (ctx.env.enterAll fields).scopes.map ρ.scope := by
    rw [Env.scopes_enterAll, Env.scopes_enterAll, List.map_append, List.map_reverse]
    rfl
  calc ρ.context (ctx.inClass h)
      = ⟨ρ.classInfo ctx.owner, ⟨(ctx.env.enterAll fields).scopes.map ρ.scope⟩⟩ := rfl
    _ = (ρ.context ctx).enterAll (fields.map ρ.scope) := by rw [← hscopes]; rfl
    _ = (ρ.context ctx).inClass (ρ.hierarchy h) := by rw [← hfields]; rfl

lemma live?_methodDecl (m : MethodDecl) (owner : ClassInfo) :
    (ρ.methodDecl m).live? (ρ.classInfo owner) = (m.live? owner).map ρ.methodInfo := by
  have hget : (ρ.classInfo owner).methods.get? (ρ.methodDecl m).name =
      (owner.methods.get? m.name).map ρ.methodInfo := Bindings.get?_rekey _ _ _ _
  have hdecl : ∀ i : MethodInfo, (ρ.methodInfo i).origin.isDecl (ρ.methodDecl m).id =
      i.origin.isDecl m.id := fun i => ρ.isDecl_origin i.origin m.id
  simp only [MethodDecl.live?, hget, Option.filter_map, Function.comp_def, hdecl]

lemma live?_classDecl (c : ClassDecl) :
    (ρ.classDecl c).live? (ρ.hierarchy h) = (c.live? h).map ρ.classInfo := by
  have hdecl : ∀ i : ClassInfo, (ρ.classInfo i).origin.isDecl (ρ.classDecl c).id =
      i.origin.isDecl c.id := fun i => ρ.isDecl_origin i.origin c.id
  have hget : (ρ.hierarchy h).get? (ρ.classDecl c).name = (h.get? c.name).map ρ.classInfo :=
    ρ.get?_hierarchy h c.name
  simp only [ClassDecl.live?, hget, Option.filter_map, Function.comp_def, hdecl]

lemma checkTypes_methodDecl (m : MethodDecl) (i : MethodInfo) :
    (ρ.methodDecl m).checkTypes (ρ.hierarchy h) (ρ.methodInfo i) =
      (m.checkTypes h i).map ρ.diagnostic := by
  have hvars := ρ.undeclared_vars h (m.formals ++ m.locals)
  rw [List.map_append] at hvars
  rw [MethodDecl.checkTypes, MethodDecl.checkTypes, List.map_append, ← undeclared_hierarchy,
    ← hvars]
  rfl

lemma checkBody_methodDecl (m : MethodDecl) (i : MethodInfo) :
    (ρ.methodDecl m).checkBody (ρ.hierarchy h) (ρ.context ctx) (ρ.methodInfo i) =
      (m.checkBody h ctx i).map ρ.diagnostic := by
  have hstmts : (m.body.map ρ.stmt).flatMap (Stmt.check (ρ.hierarchy h) (ρ.context ctx)) =
      (m.body.flatMap (Stmt.check h ctx)).map ρ.diagnostic :=
    ρ.flatMap_diagnostic fun s _ => ρ.check_stmt h ctx s
  rw [MethodDecl.checkBody, MethodDecl.checkBody, Stmt.checkAll_eq_flatMap,
    Stmt.checkAll_eq_flatMap, List.map_append, ← hstmts, ← checkAs_expr]
  rfl

lemma findings_methodDecl (m : MethodDecl) :
    (ρ.methodDecl m).findings (ρ.hierarchy h) (ρ.context ctx) =
      (m.findings h ctx).map ρ.diagnostic := by
  have howner : (ρ.context ctx).owner = ρ.classInfo ctx.owner := rfl
  rw [MethodDecl.findings, MethodDecl.findings, howner, live?_methodDecl]
  cases m.live? ctx.owner with
  | none => rfl
  | some i =>
    rw [List.map_append, ← checkTypes_methodDecl, ← checkBody_methodDecl]
    rfl

lemma checkSuper_classDecl (c : ClassDecl) (owner : ClassInfo) :
    (ρ.classDecl c).checkSuper (ρ.hierarchy h) (ρ.classInfo owner) =
      (c.checkSuper h owner).map ρ.diagnostic := by
  rw [ClassDecl.checkSuper, ClassDecl.checkSuper, classDecl]
  cases c.superName with
  | none => rfl
  | some s =>
    simp only [Option.map_some, get?_hierarchy, Option.isNone_map, onCycle_hierarchy]
    cases (h.get? s).isNone <;> cases h.onCycle owner <;> rfl

lemma overrideMismatches_classDecl (c : ClassDecl) (owner : ClassInfo) (above : List ClassInfo) :
    (ρ.classDecl c).overrideMismatches (ρ.classInfo owner) (above.map ρ.classInfo) =
      (c.overrideMismatches owner above).map ρ.diagnostic := by
  have hentries : (ρ.classInfo owner).methods.entries =
      owner.methods.entries.map fun e => (ρ.method e.1, ρ.methodInfo e.2) := rfl
  rw [ClassDecl.overrideMismatches, ClassDecl.overrideMismatches, hentries]
  apply ρ.flatMap_diagnostic
  intro e _
  rw [findSome?_methods]
  cases above.findSome? (·.methods.get? e.1) with
  | none => rfl
  | some m =>
    simp only [Option.map_some, agreesWith_methodInfo]
    cases e.2.agreesWith m with
    | true => rfl
    | false =>
      exact congrArg (fun line => [Diagnostic.mk _ line]) (ρ.lineOr_origin e.2.origin c.line)

lemma findings_classDecl (c : ClassDecl) :
    (ρ.classDecl c).findings (ρ.hierarchy h) (ρ.context ctx) =
      (c.findings h ctx).map ρ.diagnostic := by
  have hmethods : (c.methods.map ρ.methodDecl).flatMap
        (·.findings (ρ.hierarchy h) ((ρ.context ctx).inClass (ρ.hierarchy h))) =
      (c.methods.flatMap (·.findings h (ctx.inClass h))).map ρ.diagnostic := by
    rw [← inClass_context]
    exact ρ.flatMap_diagnostic fun m _ => ρ.findings_methodDecl h _ m
  rw [ClassDecl.findings, ClassDecl.findings, List.map_append, List.map_append, List.map_append,
    ← hmethods, ← undeclared_vars, ← checkSuper_classDecl, ← overrideMismatches_classDecl,
    ← ancestors_hierarchy]
  rfl

lemma freshFindings_classDecl (c : ClassDecl) :
    (ρ.classDecl c).freshFindings (ρ.hierarchy h) = (c.freshFindings h).map ρ.diagnostic := by
  rw [ClassDecl.freshFindings, ClassDecl.freshFindings, live?_classDecl]
  cases c.live? h with
  | none => rfl
  | some owner => exact ρ.findings_classDecl h ⟨owner, .empty⟩ c

/-! ### The collection -/

/-- The first declarations of their names are the same ones, so the tables are the renamed ones. -/
lemma entries_renamed {δ α : Type} (key : δ → String) (value : δ → α) (k : String ↪ String)
    {f : α → α} {r : δ → δ} (hvalue : ∀ d, value (r d) = f (value d))
    (hkey : ∀ d, key (r d) = k (key d)) (taken : List String) (ds : List δ) :
    (firsts (taken.map k) key (ds.map r)).map (fun d => (key d, value d)) =
      ((firsts taken key ds).map fun d => (key d, value d)).map fun e => (k e.1, f e.2) := by
  rw [firsts_map k.injective hkey, List.map_map, List.map_map]
  simp only [Function.comp_def, hkey, hvalue]

lemma entries_vars (taken : List String) (ds : List VarDecl) :
    (firsts (taken.map ρ.var) VarDecl.name (ds.map ρ.varDecl)).map (fun v => (v.name, v.ty)) =
      ((firsts taken VarDecl.name ds).map fun v => (v.name, v.ty)).map
        fun e => (ρ.var e.1, ρ.ty e.2) :=
  entries_renamed VarDecl.name VarDecl.ty ρ.var ρ.ty_varDecl (fun _ => rfl) taken ds

lemma info_methodDecl (m : MethodDecl) : (ρ.methodDecl m).info.1 = ρ.methodInfo m.info.1 := by
  have hparams : (ρ.methodDecl m).info.1.params = ρ.vars m.info.1.params := by
    apply Bindings.ext
    rw [MethodDecl.params_entries, vars, Bindings.entries_rekey, MethodDecl.params_entries]
    exact ρ.entries_vars [] m.formals
  have hlocals : (ρ.methodDecl m).info.1.locals = ρ.vars m.info.1.locals := by
    apply Bindings.ext
    rw [MethodDecl.locals_entries, vars, Bindings.entries_rekey, MethodDecl.locals_entries]
    rw [formalNames_methodDecl]
    exact ρ.entries_vars _ m.locals
  have hreturn : (ρ.methodDecl m).info.1.returnType = ρ.ty m.info.1.returnType :=
    ρ.ty_typeName m.returnType.type
  calc (ρ.methodDecl m).info.1
      = ⟨ρ.method m.name, (ρ.methodDecl m).info.1.returnType, .declared m.id (ρ.line m.line),
          (ρ.methodDecl m).info.1.params, (ρ.methodDecl m).info.1.locals⟩ := rfl
    _ = ρ.methodInfo m.info.1 := by rw [hreturn, hparams, hlocals]; rfl

lemma info_classDecl (c : ClassDecl) : (ρ.classDecl c).info.1 = ρ.classInfo c.info.1 := by
  have hfields : (ρ.classDecl c).info.1.fields = ρ.vars c.info.1.fields := by
    apply Bindings.ext
    rw [ClassDecl.entries_fields_firsts, vars, Bindings.entries_rekey,
      ClassDecl.entries_fields_firsts]
    exact ρ.entries_vars [] c.fields
  have hmethods : (ρ.classDecl c).info.1.methods =
      c.info.1.methods.rekey ρ.method ρ.methodInfo := by
    apply Bindings.ext
    rw [ClassDecl.entries_methods_firsts, Bindings.entries_rekey, ClassDecl.entries_methods_firsts]
    exact entries_renamed MethodDecl.name (·.info.1) ρ.method ρ.info_methodDecl (fun _ => rfl) []
      c.methods
  calc (ρ.classDecl c).info.1
      = ⟨ρ.className c.name, c.superName.map ρ.className, .declared c.id (ρ.line c.line),
          (ρ.classDecl c).info.1.fields, (ρ.classDecl c).info.1.methods⟩ := rfl
    _ = ρ.classInfo c.info.1 := by rw [hfields, hmethods]; rfl

lemma info_mainClass (m : MainClass) : (ρ.mainClass m).info = ρ.classInfo m.info := by
  -- `main` is written in no text, so a renaming has to keep it
  simp only [MainClass.info, mainClass, classInfo, methodInfo, vars, Bindings.rekey, Bindings.empty,
    List.map_cons, List.map_nil, Option.map_none, ρ.method_main, ty, origin]

theorem hierarchy_program (p : Program) : (ρ.program p).hierarchy = ρ.hierarchy p.hierarchy := by
  have houter : (ρ.hierarchy p.hierarchy).outer = [] := by
    rw [hierarchy, Scope.rekey, p.outer_hierarchy, List.map_nil]
  have hclasses := entries_renamed ClassDecl.name (·.info.1) ρ.className ρ.info_classDecl
    (fun _ => rfl) [p.main.name] p.classes
  have hown : (ρ.hierarchy p.hierarchy).own.entries =
      p.hierarchy.own.entries.map fun e => (ρ.className e.1, ρ.classInfo e.2) := rfl
  apply Program.hierarchy_eq_of_entries _ houter
  rw [hown, Program.entries_hierarchy_firsts, Program.entries_hierarchy_firsts, List.map_cons,
    ← hclasses, ← info_mainClass]
  rfl

/-! ### What the collection tells -/

/-- The kind of a diagnostic and its new line. -/
def outline (d : Diagnostic) : Kind × Line := (d.issue.kind, ρ.line d.line)

lemma outline_diagnostic (ds : List Diagnostic) :
    (ds.map ρ.diagnostic).map Diagnostic.outline = ds.map ρ.outline := by
  have hone : ∀ d, (ρ.diagnostic d).outline = ρ.outline d := by
    rintro ⟨issue, line⟩
    cases issue <;> rfl
  rw [List.map_map]
  exact List.map_congr_left fun d _ => hone d

lemma outline_duplicate (k : String ↪ String) (taken : List String) (name : String) (line : Line) :
    (duplicate (taken.map k) (k name) (ρ.line line)).map Diagnostic.outline =
      (duplicate taken name line).map ρ.outline := by
  have hname : k name ∈ taken.map k ↔ name ∈ taken := List.mem_map_of_injective k.injective
  by_cases hmem : name ∈ taken
  · rw [duplicate, duplicate, if_pos (hname.2 hmem), if_pos hmem]
    rfl
  · rw [duplicate, duplicate, if_neg (mt hname.1 hmem), if_neg hmem]
    rfl

lemma outline_withEarlier {δ : Type} (key : δ → String) (k : String ↪ String) (r : δ → δ)
    (hkey : ∀ d, key (r d) = k (key d)) {told told' : List String × δ → List Diagnostic}
    (htold : ∀ earlier d, (told' (earlier.map k, r d)).map Diagnostic.outline =
      (told (earlier, d)).map ρ.outline) (ds : List δ) :
    ((withEarlier key (ds.map r)).flatMap told').map Diagnostic.outline =
      ((withEarlier key ds).flatMap told).map ρ.outline := by
  rw [withEarlier_map hkey, List.flatMap_map, List.map_flatMap, List.map_flatMap]
  exact List.flatMap_congr fun x _ => htold x.1 x.2

lemma outline_varRepeats (taken : List String) (ds : List VarDecl) :
    (VarDecl.repeats (taken.map ρ.var) (ds.map ρ.varDecl)).map Diagnostic.outline =
      (VarDecl.repeats taken ds).map ρ.outline := by
  apply ρ.outline_withEarlier VarDecl.name ρ.var ρ.varDecl fun _ => rfl
  intro earlier d
  rw [← List.map_append]
  exact ρ.outline_duplicate ρ.var _ d.name d.line

lemma outline_methodRepeats (m : MethodDecl) :
    (ρ.methodDecl m).repeats.map Diagnostic.outline = m.repeats.map ρ.outline := by
  have hformals := ρ.outline_varRepeats [] m.formals
  have hlocals := ρ.outline_varRepeats (m.formals.map VarDecl.name) m.locals
  rw [MethodDecl.repeats, MethodDecl.repeats, formalNames_methodDecl, List.map_append,
    List.map_append, ← hformals, ← hlocals]
  rfl

lemma outline_classRepeats (c : ClassDecl) :
    (ρ.classDecl c).repeats.map Diagnostic.outline = c.repeats.map ρ.outline := by
  have hfields := ρ.outline_varRepeats [] c.fields
  rw [ClassDecl.repeats, ClassDecl.repeats, List.map_append, List.map_append, ← hfields]
  congr 1
  apply ρ.outline_withEarlier MethodDecl.name ρ.method ρ.methodDecl fun _ => rfl
  intro earlier m
  rw [List.map_append, List.map_append, outline_methodRepeats]
  congr 1
  exact ρ.outline_duplicate ρ.method earlier m.name m.line

theorem outline_collect (p : Program) :
    (Hierarchy.collect .empty (ρ.program p)).2.map Diagnostic.outline =
      (Hierarchy.collect .empty p).2.map ρ.outline := by
  rw [Program.told_collect_classes, Program.told_collect_classes]
  apply ρ.outline_withEarlier ClassDecl.name ρ.className ρ.classDecl fun _ => rfl
  intro earlier c
  rw [List.map_append, List.map_append, ClassDecl.info_told, ClassDecl.info_told,
    outline_classRepeats]
  congr 1
  exact ρ.outline_duplicate ρ.className (p.main.name :: earlier) c.name c.line

/-! ### Whole programs -/

lemma mainContext_program (p : Program) : (ρ.program p).mainContext = ρ.context p.mainContext := by
  have hmain := ρ.info_mainClass p.main
  rw [Program.mainContext, program, hmain]
  rfl

theorem outline_findings (p : Program) :
    (ρ.program p).findings.map Diagnostic.outline = p.findings.map ρ.outline := by
  have hmain : (ρ.program p).main.body.check (ρ.program p).hierarchy (ρ.program p).mainContext =
      (p.main.body.check p.hierarchy p.mainContext).map ρ.diagnostic := by
    rw [hierarchy_program, mainContext_program]
    exact ρ.check_stmt _ _ p.main.body
  have hclasses : (ρ.program p).classes.flatMap (·.freshFindings (ρ.program p).hierarchy) =
      (p.classes.flatMap (·.freshFindings p.hierarchy)).map ρ.diagnostic := by
    rw [hierarchy_program]
    exact ρ.flatMap_diagnostic fun c _ => ρ.freshFindings_classDecl p.hierarchy c
  rw [Program.findings, Program.findings, hmain, hclasses, List.map_append, outline_collect,
    ← List.map_append, outline_diagnostic, ← List.map_append]

end Renaming

/-- Give the classes, methods and variables of a program other names, different ones to different
ones, and put everything on other lines. The new program is accepted if the old one is; else both
are refused, with diagnostics of the same kinds in the same order and on the new lines. No name but
`main` is special: a class may as well be called `int`, `<error>` or nothing at all. -/
theorem Program.renaming_irrelevant (ρ : Renaming) (p : Program) :
    (∃ c d, p.check = .ok c ∧ (ρ.program p).check = .ok d) ∨
      ∃ ds es, p.check = .error (.findings ds) ∧ (ρ.program p).check = .error (.findings es) ∧
        es.map (fun e => (e.issue.kind, e.line)) =
          ds.map fun d => (d.issue.kind, ρ.line d.line) := by
  have hfound := ρ.outline_findings p
  rw [p.check_eq_findings, (ρ.program p).check_eq_findings]
  by_cases hnone : p.findings = []
  · have hnone' : (ρ.program p).findings = [] := by
      rw [hnone] at hfound
      exact List.map_eq_nil_iff.1 hfound
    exact .inl ⟨_, _, if_pos (by simp [hnone]), if_pos (by simp [hnone'])⟩
  · have hsome : (ρ.program p).findings ≠ [] := by
      intro hnil
      rw [hnil] at hfound
      exact hnone (List.map_eq_nil_iff.1 hfound.symm)
    exact .inr ⟨_, _, if_neg (by simp [hnone]), if_neg (by simp [hsome]), hfound⟩

/-- An object is printed, where a number is wanted. -/
def Program.objectPrinted : Program where
  main := ⟨"Main", "args", .print (.newObject "A" (some 1)) none, none⟩
  classes := [⟨1, "A", none, [], [], none⟩]
  line := none

/-- The names `A` and `int` are exchanged where they are names of classes, and a line is put in
front of the text. -/
def Renaming.exchange : Renaming where
  className := (Equiv.swap "A" "int").toEmbedding
  method := .refl String
  var := .refl String
  line := Option.map (· + 1)
  method_main := rfl

/-- An object of a class called `int` is no number either. -/
theorem Program.renaming_irrelevant_objectPrinted :
    ∃ ds es, objectPrinted.check = .error (.findings ds) ∧
      (Renaming.exchange.program objectPrinted).check = .error (.findings es) ∧
      ds = [⟨.typeMismatch .int (.object "A"), some 1⟩] ∧
      es.map (fun e => (e.issue.kind, e.line)) = [(.typeMismatch, some 2)] := by
  have hrefused : objectPrinted.check =
      .error (.findings [⟨.typeMismatch .int (.object "A"), some 1⟩]) := by rfl
  rcases renaming_irrelevant Renaming.exchange objectPrinted with
    ⟨c, _, hc, _⟩ | ⟨ds, es, hds, hes, heq⟩
  · rw [hrefused] at hc
    cases hc
  · obtain rfl : ds = [⟨.typeMismatch .int (.object "A"), some 1⟩] := by
      rw [hrefused] at hds
      cases hds
      rfl
    exact ⟨_, es, hds, hes, rfl, heq⟩

end MiniJava
