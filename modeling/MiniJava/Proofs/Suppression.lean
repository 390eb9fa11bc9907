import MiniJava.Proofs.Holes

/-!
# One mistake is told once

Two runs are compared: one over a piece of code, one over the same code with one expression
replaced by an expression that fails. Whatever stands around the failed expression either behaves
as before or stays silent, on every hierarchy and in every context.
-/

namespace MiniJava

/-- `new` comes from `old` when the part `seg` behind `before` is replaced by `seg'` and some of
what follows it is left out. -/
def Quieter (before seg seg' old new : List Diagnostic) : Prop :=
  ∃ after after', old = before ++ seg ++ after ∧ new = before ++ seg' ++ after' ∧
    after'.Sublist after

namespace Quieter

variable {before seg seg' old new : List Diagnostic}

lemma whole (seg seg' : List Diagnostic) : Quieter [] seg seg' seg seg' :=
  ⟨[], [], by simp, by simp, .slnil⟩

lemma trans (hq : Quieter before seg seg' old new) {pre all all' : List Diagnostic}
    (hr : Quieter pre old new all all') : Quieter (pre ++ before) seg seg' all all' := by
  obtain ⟨after, after', rfl, rfl, hafter⟩ := hq
  obtain ⟨rest, rest', rfl, rfl, hrest⟩ := hr
  exact ⟨after ++ rest, after' ++ rest', by simp, by simp, hafter.append hrest⟩

/-- Where nothing but the replaced part was told, nothing else is told now. -/
lemma eq_of_eq (hq : Quieter before seg seg' old new) (hold : old = seg) : new = seg' := by
  obtain ⟨after, after', rfl, rfl, hafter⟩ := hq
  have hlen := congrArg List.length hold
  simp only [List.length_append] at hlen
  have hbefore : before = [] := List.length_eq_zero_iff.1 (by omega)
  have hnone : after = [] := List.length_eq_zero_iff.1 (by omega)
  subst hbefore hnone
  rw [List.sublist_nil.1 hafter]
  simp

end Quieter

section Runs

variable {h : Hierarchy} {ctx : Context}

lemma fits_error (h : Hierarchy) (t : Ty) : h.fits .error t = true := by
  simp [Hierarchy.fits, Hierarchy.settled, Hierarchy.assignable]

/-- The second expression fails, or it has the type of the first and stands on the same line. -/
def FailsOrSame (h : Hierarchy) (ctx : Context) (e e' : Expr) : Prop :=
  (e'.infer h ctx).1 = .error ∨ (e'.infer h ctx).1 = (e.infer h ctx).1 ∧ e'.line = e.line

/-- What is told of an expression whose type does not fit. -/
def misfit (h : Hierarchy) (ctx : Context) (t : Ty) (told : Ty → Line → Diagnostic) (e : Expr) :
    List Diagnostic :=
  if h.fits (e.infer h ctx).1 t then [] else [told (e.infer h ctx).1 e.line]

lemma FailsOrSame.misfit_sublist {e e' : Expr} (hs : FailsOrSame h ctx e e') (t : Ty)
    (told : Ty → Line → Diagnostic) :
    (misfit h ctx t told e').Sublist (misfit h ctx t told e) := by
  rcases hs with hfail | ⟨hty, hline⟩
  · rw [misfit, hfail, fits_error, if_pos rfl]
    exact List.nil_sublist _
  · simp only [misfit, hty, hline, List.Sublist.refl]

def mistyped (h : Hierarchy) (ctx : Context) (t : Ty) (e : Expr) : List Diagnostic :=
  misfit h ctx t (fun actual line => ⟨.typeMismatch t actual, line⟩) e

lemma checkAs_eq (t : Ty) (e : Expr) :
    e.checkAs h ctx t = (e.infer h ctx).2 ++ mistyped h ctx t e := rfl

lemma FailsOrSame.mistyped_sublist {e e' : Expr} (hs : FailsOrSame h ctx e e') (t : Ty) :
    (mistyped h ctx t e').Sublist (mistyped h ctx t e) :=
  hs.misfit_sublist t _

lemma judgeArgs_sublist (method : String) (pos : Nat) (before after : List (Ty × Line))
    (t : Ty) (line line' : Line) (params : List Ty) :
    (judgeArgs h method pos (before ++ (.error, line') :: after) params).Sublist
      (judgeArgs h method pos (before ++ (t, line) :: after) params) := by
  induction before generalizing pos params with
  | nil =>
    cases params with
    | nil => exact .slnil
    | cons param params =>
      simp only [List.nil_append, judgeArgs, fits_error, if_true]
      exact List.sublist_append_right _ _
  | cons a before ih =>
    cases params with
    | nil => exact .slnil
    | cons param params => exact (ih (pos + 1) params).append_left _

/-- A failed argument changes neither the method nor the type of a call, and can only silence. -/
lemma judgeCall_failed_arg (receiver : Ty) (receiverLine : Line) (method : String)
    (before after : List (Ty × Line)) (t : Ty) (l l' line : Line) :
    (judgeCall h receiver receiverLine method (before ++ (.error, l') :: after) line).1 =
        (judgeCall h receiver receiverLine method (before ++ (t, l) :: after) line).1 ∧
      (judgeCall h receiver receiverLine method (before ++ (.error, l') :: after) line).2.Sublist
        (judgeCall h receiver receiverLine method (before ++ (t, l) :: after) line).2 := by
  unfold judgeCall
  cases h.settled receiver with
  | object c =>
    cases hm : h.findMethod? c method with
    | none => simp [hm]
    | some m =>
      by_cases hlen : m.params.size = before.length + (after.length + 1)
      · simp [hm, hlen, judgeArgs_sublist]
      · simp [hm, hlen]
  | _ => simp

/-- The judgement of a call on a failed receiver is silent. -/
lemma FailsOrSame.judgeCall_receiver {e e' : Expr} (hs : FailsOrSame h ctx e e') (method : String)
    (args : List (Ty × Line)) (line : Line) :
    ((judgeCall h (e'.infer h ctx).1 e'.line method args line).1 = .error ∨
        (judgeCall h (e'.infer h ctx).1 e'.line method args line).1 =
          (judgeCall h (e.infer h ctx).1 e.line method args line).1) ∧
      (judgeCall h (e'.infer h ctx).1 e'.line method args line).2.Sublist
        (judgeCall h (e.infer h ctx).1 e.line method args line).2 := by
  rcases hs with hfail | ⟨hty, hline⟩
  · rw [hfail]
    exact ⟨.inl rfl, List.nil_sublist _⟩
  · rw [hty, hline]
    exact ⟨.inr rfl, List.Sublist.refl _⟩

lemma FailsOrSame.judgeCall_arg {e e' : Expr} (hs : FailsOrSame h ctx e e') (receiver : Ty)
    (receiverLine : Line) (method : String) (before after : List (Ty × Line)) (line : Line) :
    (judgeCall h receiver receiverLine method
          (before ++ ((e'.infer h ctx).1, e'.line) :: after) line).1 =
        (judgeCall h receiver receiverLine method
          (before ++ ((e.infer h ctx).1, e.line) :: after) line).1 ∧
      (judgeCall h receiver receiverLine method
          (before ++ ((e'.infer h ctx).1, e'.line) :: after) line).2.Sublist
        (judgeCall h receiver receiverLine method
          (before ++ ((e.infer h ctx).1, e.line) :: after) line).2 := by
  rcases hs with hfail | ⟨hty, hline⟩
  · rw [hfail]
    exact judgeCall_failed_arg _ _ _ _ _ _ _ _ _
  · rw [hty, hline]
    exact ⟨rfl, List.Sublist.refl _⟩

/-! ### One layer of an expression -/

/-- What a layer tells before it comes to its hole. -/
def ExprFrame.ahead (h : Hierarchy) (ctx : Context) : ExprFrame → List Diagnostic
  | binaryRight op lhs _ => lhs.checkAs h ctx op.operand
  | lookupIndex array _ => array.checkAs h ctx .intArray
  | callArg receiver _ before _ _ =>
    (receiver.infer h ctx).2 ++ before.flatMap fun a => (a.infer h ctx).2
  | _ => []

/-- What a layer tells after it has been at its operand `e`. -/
def ExprFrame.behind (h : Hierarchy) (ctx : Context) (e : Expr) : ExprFrame → List Diagnostic
  | unary .not _ => mistyped h ctx .boolean e
  | binaryLeft op rhs _ => mistyped h ctx op.operand e ++ rhs.checkAs h ctx op.operand
  | binaryRight op _ _ => mistyped h ctx op.operand e
  | lookupArray index _ => mistyped h ctx .intArray e ++ index.checkAs h ctx .int
  | lookupIndex _ _ => mistyped h ctx .int e
  | lengthArray _ => mistyped h ctx .intArray e
  | callReceiver method args line =>
    (args.flatMap fun a => (a.infer h ctx).2) ++
      (judgeCall h (e.infer h ctx).1 e.line method
        (args.map fun a => ((a.infer h ctx).1, a.line)) line).2
  | callArg receiver method before after line =>
    (after.flatMap fun a => (a.infer h ctx).2) ++
      (judgeCall h (receiver.infer h ctx).1 receiver.line method
        ((before.map fun a => ((a.infer h ctx).1, a.line)) ++ ((e.infer h ctx).1, e.line) ::
          after.map fun a => ((a.infer h ctx).1, a.line)) line).2
  | newArraySize _ => mistyped h ctx .int e

lemma expecting_eq (t : Ty) (e : Expr) :
    expecting h t e.line (e.infer h ctx) = e.checkAs h ctx t := rfl

lemma ExprFrame.infer_plug (frame : ExprFrame) (e : Expr) :
    ((frame.plug e).infer h ctx).2 =
      frame.ahead h ctx ++ (e.infer h ctx).2 ++ frame.behind h ctx e := by
  cases frame with
  | unary op line =>
    cases op
    rfl
  | binaryLeft op rhs line => simp [plug, ahead, behind, Expr.infer, expecting_eq, checkAs_eq]
  | binaryRight op lhs line => simp [plug, ahead, behind, Expr.infer, expecting_eq, checkAs_eq]
  | lookupArray index line => simp [plug, ahead, behind, Expr.infer, expecting_eq, checkAs_eq]
  | lookupIndex array line => simp [plug, ahead, behind, Expr.infer, expecting_eq, checkAs_eq]
  | lengthArray line => rfl
  | callReceiver method args line => simp [plug, ahead, behind, infer_call]
  | callArg receiver method before after line => simp [plug, ahead, behind, infer_call]
  | newArraySize line => rfl

lemma FailsOrSame.behind_sublist {e e' : Expr} (hs : FailsOrSame h ctx e e') (frame : ExprFrame) :
    (frame.behind h ctx e').Sublist (frame.behind h ctx e) := by
  cases frame with
  | unary op line =>
    cases op
    exact hs.mistyped_sublist .boolean
  | binaryLeft op rhs line => exact (hs.mistyped_sublist op.operand).append_right _
  | binaryRight op lhs line => exact hs.mistyped_sublist op.operand
  | lookupArray index line => exact (hs.mistyped_sublist .intArray).append_right _
  | lookupIndex array line => exact hs.mistyped_sublist .int
  | lengthArray line => exact hs.mistyped_sublist .intArray
  | callReceiver method args line => exact (hs.judgeCall_receiver method _ line).2.append_left _
  | callArg receiver method before after line =>
    exact (hs.judgeCall_arg _ receiver.line method _ _ line).2.append_left _
  | newArraySize line => exact hs.mistyped_sublist .int

theorem ExprFrame.quieter_plug (frame : ExprFrame) {e e' : Expr}
    (hs : FailsOrSame h ctx e e') :
    Quieter (frame.ahead h ctx) (e.infer h ctx).2 (e'.infer h ctx).2
      ((frame.plug e).infer h ctx).2 ((frame.plug e').infer h ctx).2 :=
  ⟨_, _, frame.infer_plug e, frame.infer_plug e', hs.behind_sublist frame⟩

theorem ExprFrame.failsOrSame_plug (frame : ExprFrame) {e e' : Expr}
    (hs : FailsOrSame h ctx e e') : FailsOrSame h ctx (frame.plug e) (frame.plug e') := by
  cases frame with
  | unary op line =>
    cases op
    exact .inr ⟨rfl, rfl⟩
  | callReceiver method args line =>
    have hcall := (hs.judgeCall_receiver method
      (args.map fun a => ((a.infer h ctx).1, a.line)) line).1
    simp only [FailsOrSame, plug, infer_call]
    exact hcall.imp_right fun hty => ⟨hty, rfl⟩
  | callArg receiver method before after line =>
    have hcall := (hs.judgeCall_arg (receiver.infer h ctx).1 receiver.line method
      (before.map fun a => ((a.infer h ctx).1, a.line))
      (after.map fun a => ((a.infer h ctx).1, a.line)) line).1
    refine .inr ⟨?_, rfl⟩
    simpa [plug, infer_call] using hcall
  | _ => exact .inr ⟨rfl, rfl⟩

/-! ### Whole expressions and statements -/

/-- What is told before the hole of an expression is reached. -/
def ExprHole.ahead (h : Hierarchy) (ctx : Context) (hole : ExprHole) : List Diagnostic :=
  hole.flatMap (·.ahead h ctx)

/-- The layers around a failed expression, one after another, behave as before or stay silent. -/
theorem ExprHole.quieter_fill (hole : ExprHole) {e e' : Expr}
    (hfail : (e'.infer h ctx).1 = .error) :
    Quieter (hole.ahead h ctx) (e.infer h ctx).2 (e'.infer h ctx).2
        ((hole.fill e).infer h ctx).2 ((hole.fill e').infer h ctx).2 ∧
      FailsOrSame h ctx (hole.fill e) (hole.fill e') := by
  -- from the inside out; only the innermost expression is known to fail
  induction hole with
  | nil => exact ⟨.whole _ _, .inl hfail⟩
  | cons frame hole ih =>
    obtain ⟨hquiet, hsame⟩ := ih
    exact ⟨hquiet.trans (frame.quieter_plug hsame), frame.failsOrSame_plug hsame⟩

/-- What is told of the target of an assignment to an array element. -/
def toldOfArray (h : Hierarchy) (ctx : Context) (name : String) (line : Line) : List Diagnostic :=
  match ctx.typeOf h name line with
  | .error d => [d]
  | .ok t => if h.fits t .intArray then [] else [⟨.typeMismatch .intArray t, line⟩]

lemma checkAssignAt_eq (name : String) (index value : Expr) (line : Line) :
    checkAssignAt h ctx name index value line =
      toldOfArray h ctx name line ++ index.checkAs h ctx .int ++ value.checkAs h ctx .int := by
  unfold checkAssignAt toldOfArray
  cases ctx.typeOf h name line <;> rfl

/-- What a statement tells before it comes to the expression at the given place. -/
def StmtSlot.ahead (h : Hierarchy) (ctx : Context) : StmtSlot → List Diagnostic
  | assign name line =>
    match ctx.typeOf h name line with
    | .error d => [d]
    | .ok _ => []
  | assignAtIndex name _ line => toldOfArray h ctx name line
  | assignAtValue name index line => toldOfArray h ctx name line ++ index.checkAs h ctx .int
  | _ => []

/-- What a statement tells after it has been at the expression `e` at the given place. -/
def StmtSlot.behind (h : Hierarchy) (ctx : Context) (e : Expr) : StmtSlot → List Diagnostic
  | branchCond yes no _ =>
    misfit h ctx .boolean (fun actual line => ⟨.conditionTypeMismatch actual, line⟩) e ++
      (yes.check h ctx ++ no.check h ctx)
  | loopCond body _ =>
    misfit h ctx .boolean (fun actual line => ⟨.conditionTypeMismatch actual, line⟩) e ++
      body.check h ctx
  | print _ => mistyped h ctx .int e
  | assign name line =>
    match ctx.typeOf h name line with
    | .error _ => []
    | .ok t => misfit h ctx t (fun actual _ => ⟨.assignmentTypeMismatch name t actual, line⟩) e
  | assignAtIndex _ value _ => mistyped h ctx .int e ++ value.checkAs h ctx .int
  | assignAtValue _ _ _ => mistyped h ctx .int e

lemma StmtSlot.check_plug (slot : StmtSlot) (e : Expr) :
    (slot.plug e).check h ctx = slot.ahead h ctx ++ (e.infer h ctx).2 ++ slot.behind h ctx e := by
  cases slot with
  | branchCond yes no line =>
    simp [plug, ahead, behind, misfit, Stmt.check, Expr.checkAsCondition]
  | loopCond body line => simp [plug, ahead, behind, misfit, Stmt.check, Expr.checkAsCondition]
  | print line => rfl
  | assign name line =>
    cases ht : ctx.typeOf h name line with
    | error d => simp [plug, ahead, behind, Stmt.check, checkAssign, ht]
    | ok t => simp [plug, ahead, behind, misfit, Stmt.check, checkAssign, ht]
  | assignAtIndex name value line =>
    simp [plug, ahead, behind, Stmt.check, checkAssignAt_eq, checkAs_eq]
  | assignAtValue name index line =>
    simp [plug, ahead, behind, Stmt.check, checkAssignAt_eq, checkAs_eq]

lemma FailsOrSame.slot_behind_sublist {e e' : Expr} (hs : FailsOrSame h ctx e e')
    (slot : StmtSlot) : (slot.behind h ctx e').Sublist (slot.behind h ctx e) := by
  cases slot with
  | branchCond yes no line => exact (hs.misfit_sublist .boolean _).append_right _
  | loopCond body line => exact (hs.misfit_sublist .boolean _).append_right _
  | print line => exact hs.mistyped_sublist .int
  | assign name line =>
    simp only [StmtSlot.behind]
    cases ctx.typeOf h name line with
    | error d => exact .slnil
    | ok t => exact hs.misfit_sublist t _
  | assignAtIndex name value line => exact (hs.mistyped_sublist .int).append_right _
  | assignAtValue name index line => exact hs.mistyped_sublist .int

theorem StmtSlot.quieter_plug (slot : StmtSlot) {e e' : Expr} (hs : FailsOrSame h ctx e e') :
    Quieter (slot.ahead h ctx) (e.infer h ctx).2 (e'.infer h ctx).2
      ((slot.plug e).check h ctx) ((slot.plug e').check h ctx) :=
  ⟨_, _, slot.check_plug e, slot.check_plug e', hs.slot_behind_sublist slot⟩

/-- What a statement tells before it comes to the statement at the given place. -/
def StmtFrame.ahead (h : Hierarchy) (ctx : Context) : StmtFrame → List Diagnostic
  | block before _ _ => before.flatMap (·.check h ctx)
  | branchYes cond _ _ => cond.checkAsCondition h ctx
  | branchNo cond yes _ => cond.checkAsCondition h ctx ++ yes.check h ctx
  | loopBody cond _ => cond.checkAsCondition h ctx

/-- What a statement tells after it has been at the statement at the given place. -/
def StmtFrame.behind (h : Hierarchy) (ctx : Context) : StmtFrame → List Diagnostic
  | block _ after _ => after.flatMap (·.check h ctx)
  | branchYes _ no _ => no.check h ctx
  | branchNo _ _ _ => []
  | loopBody _ _ => []

lemma StmtFrame.check_plug (frame : StmtFrame) (s : Stmt) :
    (frame.plug s).check h ctx = frame.ahead h ctx ++ s.check h ctx ++ frame.behind h ctx := by
  cases frame <;> simp [plug, ahead, behind, Stmt.check, Stmt.checkAll_eq_flatMap]

lemma StmtFrame.quieter_plug (frame : StmtFrame) (s s' : Stmt) :
    Quieter (frame.ahead h ctx) (s.check h ctx) (s'.check h ctx)
      ((frame.plug s).check h ctx) ((frame.plug s').check h ctx) :=
  ⟨_, _, frame.check_plug s, frame.check_plug s', List.Sublist.refl _⟩

/-- What is told before the hole of a statement is reached. -/
def StmtHole.ahead (h : Hierarchy) (ctx : Context) (hole : StmtHole) : List Diagnostic :=
  hole.outer.flatMap (·.ahead h ctx) ++ (hole.slot.ahead h ctx ++ hole.inner.ahead h ctx)

theorem StmtHole.quieter_fill (hole : StmtHole) {e e' : Expr}
    (hfail : (e'.infer h ctx).1 = .error) :
    Quieter (hole.ahead h ctx) (e.infer h ctx).2 (e'.infer h ctx).2
      ((hole.fill e).check h ctx) ((hole.fill e').check h ctx) := by
  obtain ⟨outer, slot, inner⟩ := hole
  obtain ⟨hinner, hsame⟩ := inner.quieter_fill hfail (e := e)
  have hslot := hinner.trans (slot.quieter_plug hsame)
  induction outer with
  | nil => exact hslot
  | cons frame outer ih =>
    have hframe := ih.trans (frame.quieter_plug _ _)
    rw [ahead, List.flatMap_cons, List.append_assoc]
    exact hframe

end Runs

/-- Put an expression that fails in the place of another, at any depth of an expression or of a
statement. What the place tells is exchanged for what the new expression tells, nothing else is told
anew, and the type of the whole expression is the old one or the whole fails too. If only the place
told anything before, only the place does now. -/
theorem failure_never_cascades (h : Hierarchy) (ctx : Context) :
    (∀ hole : ExprHole, ∃ before, ∀ e e' : Expr, (e'.infer h ctx).1 = .error →
      Quieter before (e.infer h ctx).2 (e'.infer h ctx).2
          ((hole.fill e).infer h ctx).2 ((hole.fill e').infer h ctx).2 ∧
        (((hole.fill e').infer h ctx).1 = ((hole.fill e).infer h ctx).1 ∨
          ((hole.fill e').infer h ctx).1 = .error) ∧
        (((hole.fill e).infer h ctx).2 = (e.infer h ctx).2 →
          ((hole.fill e').infer h ctx).2 = (e'.infer h ctx).2)) ∧
    ∀ hole : StmtHole, ∃ before, ∀ e e' : Expr, (e'.infer h ctx).1 = .error →
      Quieter before (e.infer h ctx).2 (e'.infer h ctx).2
          ((hole.fill e).check h ctx) ((hole.fill e').check h ctx) ∧
        ((hole.fill e).check h ctx = (e.infer h ctx).2 →
          (hole.fill e').check h ctx = (e'.infer h ctx).2) := by
  constructor
  · intro hole
    refine ⟨hole.ahead h ctx, fun e e' hfail => ?_⟩
    obtain ⟨hquiet, hsame⟩ := hole.quieter_fill hfail (e := e)
    exact ⟨hquiet, hsame.symm.imp_left And.left, hquiet.eq_of_eq⟩
  · intro hole
    refine ⟨hole.ahead h ctx, fun e e' hfail => ?_⟩
    have hquiet := hole.quieter_fill hfail (e := e)
    exact ⟨hquiet, hquiet.eq_of_eq⟩

/-- In `print(1.m() + true)` the receiver is replaced by an unknown name: the call is no longer
blamed, the right operand of the sum still is. -/
theorem failure_never_cascades_unknown_receiver :
    ((Expr.identifier "x" none).infer .empty default).1 = .error ∧
      ∃ before, Quieter before [] [⟨.undefinedIdentifier "x", none⟩]
        [⟨.notAnObject .int, none⟩, ⟨.typeMismatch .int .boolean, none⟩]
        [⟨.undefinedIdentifier "x", none⟩, ⟨.typeMismatch .int .boolean, none⟩] := by
  obtain ⟨before, hbefore⟩ := (failure_never_cascades .empty default).2
    ⟨[], .print none, [.binaryLeft .add (.boolLiteral true none) none, .callReceiver "m" [] none]⟩
  exact ⟨rfl, before, (hbefore (.intLiteral 1 none) (.identifier "x" none) rfl).1⟩

end MiniJava
