import MiniJava.Proofs.Blurring
import MiniJava.Proofs.Circles

/-!
# Genuine mismatches

Where types are compared, a class that there is not counts as failed; but they are told as they are.
That makes no difference: whatever mismatch is told is between two types that exist and do not fit.
The type of a failed expression is never told, nor is a class that there is not.
-/

namespace MiniJava

namespace Hierarchy

variable {h : Hierarchy} {s t : Ty}

/-- Not the type of a failed expression, and not that of a class that there is not. -/
def Knows (h : Hierarchy) (t : Ty) : Prop :=
  t ≠ .error ∧ ∀ c, t = .object c → (h.get? c).isSome = true

/-- Two types that exist and do not fit. -/
structure Clash (h : Hierarchy) (actual expected : Ty) : Prop where
  actual_known : h.Knows actual
  expected_known : h.Knows expected
  refused : h.assignable actual expected = false

lemma knows_iff : h.Knows t ↔ h.settled t = t ∧ t ≠ .error := by
  cases t with
  | object c => cases hc : (h.get? c).isSome <;> simp [Knows, settled, hc]
  | _ => simp [Knows, settled]

lemma knows_of_settled_ne (ht : h.settled t ≠ .error) : h.Knows t := by
  cases t with
  | object c =>
    refine ⟨by simp, fun d hd => ?_⟩
    cases hd
    by_contra hc
    exact ht (if_neg hc)
  | _ => exact ⟨ht, by simp⟩

/-- Types fail to fit only as they are: none of them counts as failed then. -/
theorem fits_eq_false_iff : h.fits s t = false ↔ h.Clash s t := by
  constructor
  · intro hfit
    have hs : h.Knows s := by
      apply knows_of_settled_ne
      intro herror
      simp [fits, herror, assignable] at hfit
    have ht : h.Knows t := by
      apply knows_of_settled_ne
      intro herror
      rw [fits, herror, assignable_error] at hfit
      cases hfit
    rw [fits, (knows_iff.1 hs).1, (knows_iff.1 ht).1] at hfit
    exact ⟨hs, ht, hfit⟩
  · intro hclash
    rw [fits, (knows_iff.1 hclash.actual_known).1, (knows_iff.1 hclash.expected_known).1]
    exact hclash.refused

instance (h : Hierarchy) (s t : Ty) : Decidable (h.Clash s t) :=
  decidable_of_iff _ fits_eq_false_iff

lemma knows_settled (h : Hierarchy) (t : Ty) : h.settled t = .error ∨ h.Knows (h.settled t) := by
  refine or_iff_not_imp_left.2 fun ht => knows_of_settled_ne ?_
  rwa [settled_settled]

end Hierarchy

/-- A mismatch is between types that exist and do not fit. Of the receiver of a call it is told that
it is no object, and then it is none. Other issues tell no types. -/
def Issue.Genuine (h : Hierarchy) : Issue → Prop
  | .typeMismatch expected actual => h.Clash actual expected
  | .argumentTypeMismatch _ _ expected actual => h.Clash actual expected
  | .assignmentTypeMismatch _ expected actual => h.Clash actual expected
  | .conditionTypeMismatch actual => h.Clash actual .boolean
  | .notAnObject actual => actual ≠ .error ∧ ∀ c, actual ≠ .object c
  | .duplicateDefinition _ | .undefinedIdentifier _ | .undefinedClass _ | .undefinedMethod _ _
  | .arityMismatch _ _ _ | .invalidOverride _ _ | .cyclicInheritance _ => True

variable {h : Hierarchy} {ctx : Context}

lemma Issue.Arises.genuine {i : Issue} (hi : i.Arises h) : i.Genuine h := by
  cases hi with
  | argumentTypeMismatch hfit => exact Hierarchy.fits_eq_false_iff.1 hfit
  | typeMismatch hfit => exact Hierarchy.fits_eq_false_iff.1 hfit
  | assignmentTypeMismatch hfit => exact Hierarchy.fits_eq_false_iff.1 hfit
  | conditionTypeMismatch hfit => exact Hierarchy.fits_eq_false_iff.1 hfit
  | notAnObject herror hobject => exact ⟨herror, hobject⟩
  | _ => trivial

/-! ### Types of expressions -/

lemma BinaryOp.knows_result (op : BinaryOp) : h.Knows op.result := by
  cases op <;> simp [Hierarchy.Knows, result]

lemma knows_judgeCall (receiver : Ty) (receiverLine line : Line) (method : String)
    (args : List (Ty × Line)) :
    (judgeCall h receiver receiverLine method args line).1 = .error ∨
      h.Knows (judgeCall h receiver receiverLine method args line).1 := by
  unfold judgeCall
  cases h.settled receiver with
  | object c =>
    cases hm : h.findMethod? c method with
    | none => simp [hm]
    | some m =>
      by_cases hsize : m.params.size = args.length
      · simpa only [hm, if_pos hsize] using h.knows_settled m.returnType
      · simp [hm, hsize]
  | _ => simp

/-- Inside a class that there is, an expression that has not failed has a type that exists. -/
theorem knows_infer (hctx : h.Bound ctx.owner) (e : Expr) :
    (e.infer h ctx).1 = .error ∨ h.Knows (e.infer h ctx).1 := by
  have hbuiltin : ∀ {t : Ty}, t ≠ .error → (∀ c, t ≠ .object c) → t = .error ∨ h.Knows t :=
    fun herror hobject => .inr ⟨herror, fun c hc => absurd hc (hobject c)⟩
  cases e with
  | unary op e line =>
    cases op
    exact hbuiltin (by simp [Expr.infer]) (by simp [Expr.infer])
  | binary op l r line => exact .inr op.knows_result
  | call e m args line =>
    rw [infer_call]
    exact knows_judgeCall _ _ _ _ _
  | newObject c line =>
    rw [Expr.infer]
    by_cases hc : (h.get? c).isSome = true
    · simp [hc, Hierarchy.Knows]
    · simp [hc]
  | this line =>
    have howner : h.get? ctx.owner.name = some ctx.owner := hctx
    refine .inr ⟨by simp [Expr.infer], fun c hc => ?_⟩
    cases hc
    rw [howner]
    rfl
  | identifier x line =>
    rw [Expr.infer, Context.typeOf]
    cases ctx.env.resolve x with
    | none => exact .inl rfl
    | some t => exact h.knows_settled t
  | _ => exact hbuiltin (by simp [Expr.infer]) (by simp [Expr.infer])

/-! ### Whole programs -/

def Kind.ofMismatch : List Kind :=
  [argumentTypeMismatch, typeMismatch, assignmentTypeMismatch, conditionTypeMismatch]

/-- What is of no such kind tells no types. -/
lemma OfKinds.genuine {kinds : List Kind} {ds : List Diagnostic} (hds : OfKinds kinds ds)
    (hkinds : ∀ k ∈ kinds, k ∉ Kind.ofMismatch) : ∀ d ∈ ds, d.issue.Genuine h := by
  rintro ⟨i, line⟩ hd
  have hi : i.kind ∉ Kind.ofMismatch := hkinds _ (hds _ hd)
  cases i <;> simp [Issue.kind, Kind.ofMismatch] at hi <;> trivial

namespace ClassDecl

lemma ofKinds_checkSuper (h : Hierarchy) (d : ClassDecl) (owner : ClassInfo) :
    OfKinds [.undefinedClass, .cyclicInheritance] (d.checkSuper h owner) := by
  unfold checkSuper
  cases d.superName with
  | none => exact .nil
  | some s =>
    dsimp only
    split_ifs
    · exact .single .undefinedClass rfl (by decide)
    · exact .single .cyclicInheritance rfl (by decide)
    · exact .nil

lemma genuine_findings (h : Hierarchy) (ctx : Context) (d : ClassDecl) :
    ∀ x ∈ d.findings h ctx, x.issue.Genuine h := by
  have hsuper : ∀ x ∈ d.checkSuper h ctx.owner, x.issue.Genuine h :=
    (d.ofKinds_checkSuper h ctx.owner).genuine (by decide)
  have hfields : ∀ x ∈ d.fields.flatMap (·.undeclared h), x.issue.Genuine h :=
    List.forall_mem_flatMap.2 fun v _ x hx => (arises_undeclared v.ty v.line x hx).genuine
  have hmethods : ∀ x ∈ d.methods.flatMap (·.findings h (ctx.inClass h)), x.issue.Genuine h :=
    List.forall_mem_flatMap.2 fun m _ x hx => (arises_methodFindings _ m x hx).genuine
  have hoverrides : ∀ x ∈ d.overrideMismatches ctx.owner (h.ancestors ctx.owner),
      x.issue.Genuine h :=
    (ofKinds_overrideMismatches d ctx.owner _).genuine (by decide)
  simp only [findings, List.forall_mem_append]
  exact ⟨⟨⟨hsuper, hfields⟩, hmethods⟩, hoverrides⟩

end ClassDecl

lemma Program.genuine_findings (p : Program) : ∀ d ∈ p.findings, d.issue.Genuine p.hierarchy := by
  have hcollect : ∀ d ∈ (Hierarchy.collect .empty p).2, d.issue.Genuine p.hierarchy :=
    (ofKinds_collect .empty p).genuine (by decide)
  have hmain : ∀ d ∈ p.main.body.check p.hierarchy p.mainContext, d.issue.Genuine p.hierarchy :=
    fun d hd => (arises_check _ d hd).genuine
  have hclasses : ∀ c ∈ p.classes, ∀ d ∈ c.freshFindings p.hierarchy,
      d.issue.Genuine p.hierarchy := by
    intro c _ d hd
    unfold ClassDecl.freshFindings at hd
    cases hlive : c.live? p.hierarchy with
    | none => simp [hlive] at hd
    | some owner =>
      rw [hlive] at hd
      exact c.genuine_findings _ _ d hd
  simp only [findings, List.forall_mem_append, List.forall_mem_flatMap]
  exact ⟨hcollect, hmain, hclasses⟩

/-- In every hierarchy and with any scopes open, a mismatch that is told in an expression, in a
statement or in a method is between two types that exist and do not fit. So is each that is told of
a program. Inside a class that there is, the type of every expression that has not failed exists. -/
theorem mismatches_genuine :
    (∀ (h : Hierarchy) (ctx : Context),
      (h.Bound ctx.owner → ∀ e : Expr, (e.infer h ctx).1 = .error ∨ h.Knows (e.infer h ctx).1) ∧
      (∀ e : Expr, ∀ d ∈ (e.infer h ctx).2, d.issue.Genuine h) ∧
      (∀ s : Stmt, ∀ d ∈ s.check h ctx, d.issue.Genuine h) ∧
      ∀ m : MethodDecl, ∀ d ∈ (m.check h ctx).diagnostics, d.issue.Genuine h) ∧
    ∀ p : Program, ∃ ds, p.Reports ds ∧ ∀ d ∈ ds, d.issue.Genuine p.hierarchy := by
  refine ⟨fun h ctx => ⟨knows_infer, ?_, ?_, ?_⟩, fun p => ⟨p.findings, p.check_eq_findings,
    p.genuine_findings⟩⟩
  · exact fun e d hd => (arises_infer e d hd).genuine
  · exact fun s d hd => (arises_check s d hd).genuine
  · intro m d hd
    rw [(m.check_finds h ctx).diagnostics] at hd
    exact (arises_methodFindings ctx m d hd).genuine

namespace Program

/-- Class `B` has a field of another class and a field of a class that there is not. -/
def strangers : Program where
  main := ⟨"Main", "args", .block [] none, none⟩
  classes :=
    [⟨1, "A", none, [], [], none⟩,
      ⟨2, "B", none, [⟨⟨.ofClass "A", none⟩, "a", none⟩, ⟨⟨.ofClass "C", none⟩, "c", none⟩], [],
        none⟩]
  line := none

/-- Inside `B`. -/
def strangersContext : Context :=
  Context.inClass strangers.hierarchy ⟨(strangers.classes.getLast (by decide)).info.1, .empty⟩

/-- Both fields are assigned the object itself, then one the other, and a number is called. -/
def strangersBody : Stmt :=
  .block [.assign "a" (.this none) (some 1), .assign "c" (.this none) (some 2),
    .assign "a" (.identifier "c" none) (some 3),
    .print (.call (.intLiteral 7 (some 4)) "f" [.identifier "c" none] none) none] none

/-- Only the field of class `A` is told, and the number. The class that there is not goes with
everything. -/
theorem mismatches_genuine_strangers :
    strangers.hierarchy.Bound strangersContext.owner ∧
    strangersBody.check strangers.hierarchy strangersContext =
      [⟨.assignmentTypeMismatch "a" (.object "A") (.object "B"), some 1⟩,
        ⟨.notAnObject .int, some 4⟩] ∧
    strangers.hierarchy.Clash (.object "B") (.object "A") ∧
    strangers.hierarchy.Knows ((Expr.this none).infer strangers.hierarchy strangersContext).1 := by
  have hbound : strangers.hierarchy.Bound strangersContext.owner := rfl
  have hcheck : strangersBody.check strangers.hierarchy strangersContext =
      [⟨.assignmentTypeMismatch "a" (.object "A") (.object "B"), some 1⟩,
        ⟨.notAnObject .int, some 4⟩] := by decide
  obtain ⟨hcode, _⟩ := mismatches_genuine
  obtain ⟨htypes, _, hstmts, _⟩ := hcode strangers.hierarchy strangersContext
  have htold := hstmts strangersBody
  rw [hcheck, List.forall_mem_cons] at htold
  have hthis := (htypes hbound (.this none)).resolve_left (by decide)
  exact ⟨hbound, hcheck, htold.1, hthis⟩

end Program

end MiniJava
