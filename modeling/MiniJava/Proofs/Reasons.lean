import Mathlib.Data.List.Basic
import MiniJava.Proofs.Findings
import MiniJava.Proofs.Inference

/-!
# Reasons of findings

What may be found in code, and what must hold of the hierarchy for it to be found. This goes once
through all that is checked in a method; what is said of particular findings follows from it.
-/

namespace MiniJava

/-- An issue of code, with the reason for which it is told. -/
inductive Issue.Arises (h : Hierarchy) : Issue → Prop
  | undefinedIdentifier (name : String) : Arises h (.undefinedIdentifier name)
  | undefinedClass {c : String} (hc : h.get? c = none) : Arises h (.undefinedClass c)
  | undefinedMethod {c m : String} (hm : h.findMethod? c m = none) :
      Arises h (.undefinedMethod c m)
  | arityMismatch {c m : String} {i : MethodInfo} {n : Nat} (hm : h.findMethod? c m = some i)
      (hn : i.params.size ≠ n) : Arises h (.arityMismatch m i.params.size n)
  | argumentTypeMismatch {m : String} {pos : Nat} {expected actual : Ty}
      (hfit : h.fits actual expected = false) :
      Arises h (.argumentTypeMismatch m pos expected actual)
  | typeMismatch {expected actual : Ty} (hfit : h.fits actual expected = false) :
      Arises h (.typeMismatch expected actual)
  | notAnObject {actual : Ty} (herror : actual ≠ .error) (hobject : ∀ c, actual ≠ .object c) :
      Arises h (.notAnObject actual)
  | assignmentTypeMismatch {name : String} {expected actual : Ty}
      (hfit : h.fits actual expected = false) :
      Arises h (.assignmentTypeMismatch name expected actual)
  | conditionTypeMismatch {actual : Ty} (hfit : h.fits actual .boolean = false) :
      Arises h (.conditionTypeMismatch actual)

variable {h : Hierarchy} {ctx : Context}

lemma arises_unless {b : Bool} {d : Diagnostic} (hd : b = false → d.issue.Arises h) :
    ∀ e ∈ (if b then [] else [d]), e.issue.Arises h := by
  cases b with
  | true => simp
  | false => simpa using hd

lemma arises_undeclared (t : Ty) (line : Line) : ∀ d ∈ h.undeclared t line, d.issue.Arises h := by
  cases t with
  | object c => exact arises_unless fun hc => .undefinedClass (by simpa using hc)
  | _ => simp [Hierarchy.undeclared]

lemma arises_typeOf {x : String} {line : Line} {d : Diagnostic}
    (hd : ctx.typeOf h x line = .error d) : d.issue.Arises h := by
  unfold Context.typeOf at hd
  cases hx : ctx.env.resolve x with
  | some t => simp [hx] at hd
  | none =>
    rw [hx] at hd
    cases hd
    exact .undefinedIdentifier x

lemma arises_expecting (t : Ty) (line : Line) {r : Ty × List Diagnostic}
    (hr : ∀ d ∈ r.2, d.issue.Arises h) : ∀ d ∈ expecting h t line r, d.issue.Arises h :=
  List.forall_mem_append.2 ⟨hr, arises_unless .typeMismatch⟩

lemma arises_judgeArgs (method : String) (pos : Nat) (args : List (Ty × Line))
    (params : List Ty) : ∀ d ∈ judgeArgs h method pos args params, d.issue.Arises h := by
  induction args generalizing pos params with
  | nil => simp [judgeArgs]
  | cons a args ih =>
    cases params with
    | nil => simp [judgeArgs]
    | cons t params =>
      exact List.forall_mem_append.2 ⟨arises_unless .argumentTypeMismatch, ih (pos + 1) params⟩

lemma arises_judgeCall (receiver : Ty) (receiverLine line : Line) (method : String)
    (args : List (Ty × Line)) :
    ∀ d ∈ (judgeCall h receiver receiverLine method args line).2, d.issue.Arises h := by
  unfold judgeCall
  cases h.settled receiver with
  | error => simp
  | object c =>
    cases hm : h.findMethod? c method with
    | none => simpa [hm] using Issue.Arises.undefinedMethod hm
    | some m =>
      by_cases hsize : m.params.size = args.length
      · simpa only [hm, if_pos hsize] using arises_judgeArgs method 1 args m.paramTypes
      · simpa [hm, hsize] using Issue.Arises.arityMismatch hm hsize
  | _ => simpa using Issue.Arises.notAnObject (by simp) (by simp)

theorem arises_infer (e : Expr) : ∀ d ∈ (e.infer h ctx).2, d.issue.Arises h := by
  induction e using Expr.induction with
  | unary op e line ih =>
    cases op
    exact arises_expecting _ _ ih
  | binary op l r line ihl ihr =>
    exact List.forall_mem_append.2 ⟨arises_expecting _ _ ihl, arises_expecting _ _ ihr⟩
  | arrayLookup a i line iha ihi =>
    exact List.forall_mem_append.2 ⟨arises_expecting _ _ iha, arises_expecting _ _ ihi⟩
  | arrayLength a line ih => exact arises_expecting _ _ ih
  | call e m args line ihe ihargs =>
    have hargs : ∀ d ∈ args.flatMap fun a => (a.infer h ctx).2, d.issue.Arises h :=
      List.forall_mem_flatMap.2 ihargs
    rw [infer_call]
    exact List.forall_mem_append.2
      ⟨List.forall_mem_append.2 ⟨ihe, hargs⟩, arises_judgeCall _ _ _ _ _⟩
  | newArray n line ih => exact arises_expecting _ _ ih
  | newObject c line =>
    rw [Expr.infer]
    by_cases hc : (h.get? c).isSome = true
    · simp [hc]
    · simpa [hc] using Issue.Arises.undefinedClass (by simpa using hc)
  | this line => simp [Expr.infer]
  | identifier x line =>
    rw [Expr.infer]
    cases hx : ctx.typeOf h x line with
    | ok t => simp
    | error d => simpa using arises_typeOf hx
  | intLiteral n line => simp [Expr.infer]
  | boolLiteral b line => simp [Expr.infer]

lemma arises_checkAs (t : Ty) (e : Expr) : ∀ d ∈ e.checkAs h ctx t, d.issue.Arises h :=
  arises_expecting t e.line (arises_infer e)

lemma arises_checkAsCondition (e : Expr) : ∀ d ∈ e.checkAsCondition h ctx, d.issue.Arises h :=
  List.forall_mem_append.2 ⟨arises_infer e, arises_unless .conditionTypeMismatch⟩

lemma arises_checkAssign (x : String) (e : Expr) (line : Line) :
    ∀ d ∈ checkAssign h ctx x e line, d.issue.Arises h := by
  unfold checkAssign
  cases hx : ctx.typeOf h x line with
  | error d => exact List.forall_mem_cons.2 ⟨arises_typeOf hx, arises_infer e⟩
  | ok t => exact List.forall_mem_append.2 ⟨arises_infer e, arises_unless .assignmentTypeMismatch⟩

lemma arises_checkAssignAt (x : String) (i e : Expr) (line : Line) :
    ∀ d ∈ checkAssignAt h ctx x i e line, d.issue.Arises h := by
  unfold checkAssignAt
  refine List.forall_mem_append.2
    ⟨List.forall_mem_append.2 ⟨?_, arises_checkAs .int i⟩, arises_checkAs .int e⟩
  cases hx : ctx.typeOf h x line with
  | error d => simpa using arises_typeOf hx
  | ok t => exact arises_unless .typeMismatch

theorem arises_check (s : Stmt) : ∀ d ∈ s.check h ctx, d.issue.Arises h := by
  induction s using Stmt.induction with
  | block body line ih =>
    rw [Stmt.check, Stmt.checkAll_eq_flatMap]
    exact List.forall_mem_flatMap.2 ih
  | branch cond yes no line ihy ihn =>
    exact List.forall_mem_append.2
      ⟨List.forall_mem_append.2 ⟨arises_checkAsCondition cond, ihy⟩, ihn⟩
  | loop cond body line ih => exact List.forall_mem_append.2 ⟨arises_checkAsCondition cond, ih⟩
  | print e line => exact arises_checkAs .int e
  | assign x e line => exact arises_checkAssign x e line
  | assignAt x i e line => exact arises_checkAssignAt x i e line

/-- The types that a method names, its statements and the value it returns. -/
theorem arises_methodFindings (ctx : Context) (m : MethodDecl) :
    ∀ d ∈ m.findings h ctx, d.issue.Arises h := by
  unfold MethodDecl.findings
  cases m.live? ctx.owner with
  | none => simp
  | some i =>
    have htypes : ∀ d ∈ m.checkTypes h i, d.issue.Arises h :=
      List.forall_mem_append.2 ⟨arises_undeclared _ _,
        List.forall_mem_flatMap.2 fun v _ => arises_undeclared v.ty v.line⟩
    have hbody : ∀ d ∈ m.checkBody h (ctx.enter i.scope) i, d.issue.Arises h := by
      rw [MethodDecl.checkBody, Stmt.checkAll_eq_flatMap]
      exact List.forall_mem_append.2
        ⟨List.forall_mem_flatMap.2 fun s _ => arises_check s, arises_checkAs _ _⟩
    exact List.forall_mem_append.2 ⟨htypes, hbody⟩

end MiniJava
