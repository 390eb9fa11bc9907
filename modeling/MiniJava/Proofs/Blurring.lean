import MiniJava.Proofs.Inference

/-!
# Inference with less known types

What failed fits everywhere. Suppose that a hierarchy and a context have all the classes, methods
and variables that the typing rules speak of, but count some of their types as failed. Wherever the
rules give a type, inference then gives the same type or none, and it finds nothing.
-/

namespace MiniJava
open Relation

/-- To `h` the type `t` is the type `s`, or that of something that failed. -/
def Hierarchy.Blurs (h : Hierarchy) (s t : Ty) : Prop := h.settled t = s ∨ h.settled t = .error

namespace Hierarchy

variable {h : Hierarchy} {s t s' t' : Ty}

lemma settled_settled (h : Hierarchy) (t : Ty) : h.settled (h.settled t) = h.settled t := by
  cases t with
  | object c => cases hc : (h.get? c).isSome <;> simp [settled, hc]
  | _ => rfl

lemma blurs_refl (h : Hierarchy) (t : Ty) : h.Blurs t t := by
  cases t with
  | object c => cases hc : (h.get? c).isSome <;> simp [Blurs, settled, hc]
  | _ => exact .inl rfl

lemma blurs_error (h : Hierarchy) (t : Ty) : h.Blurs t .error := .inr rfl

lemma blurs_undeclared (s : Ty) {c : String} (hc : h.get? c = none) : h.Blurs s (.object c) := by
  simp [Blurs, settled, hc]

lemma Blurs.settled (hst : h.Blurs s t) : h.Blurs s (h.settled t) := by
  rw [Blurs, h.settled_settled]
  exact hst

lemma isSome_of_settled_eq {c : String} (ht : h.settled t = .object c) :
    (h.get? c).isSome = true := by
  cases t with
  | object d =>
    cases hd : (h.get? d).isSome with
    | true =>
      simp only [settled, hd, if_true] at ht
      cases ht
      exact hd
    | false => simp [settled, hd] at ht
  | _ => cases ht

lemma assignable_error (h : Hierarchy) (s : Ty) : h.assignable s .error = true := by
  cases s <;> rfl

end Hierarchy

/-- The hierarchy has the classes and the methods of a program, with signatures that are less
known. -/
structure Program.BlurredIn (p : Program) (h : Hierarchy) : Prop where
  known : ∀ c ∈ p.classNames, (h.get? c).isSome = true
  derives : ∀ a b, ReflTransGen p.Extends a b → h.derivesFrom a b = true
  method : ∀ c m s, (h.get? c).isSome = true → p.Nearest (p.HasMethod m) c s →
    ∃ i, h.findMethod? c m = some i ∧ List.Forall₂ h.Blurs s.params i.paramTypes ∧
      h.Blurs s.result i.returnType

/-- The context is inside class `c` and has the variables `vars`, with types that are less known. -/
structure Context.SeesBlurred (ctx : Context) (h : Hierarchy) (c : String)
    (vars : String → Ty → Prop) : Prop where
  owner : ctx.owner.name = c
  resolve : ∀ x s, vars x s → ∃ t, ctx.env.resolve x = some t ∧ h.Blurs s t

namespace Program

variable {p : Program} {h : Hierarchy} {ctx : Context} {self : String} {vars : String → Ty → Prop}

/-- What could be assigned still can, if either side is less known. -/
lemma BlurredIn.fits (hp : p.BlurredIn h) {s t s' t' : Ty} (hst : p.Assignable s t)
    (hs : h.Blurs s s') (ht : h.Blurs t t') : h.fits s' t' = true := by
  rw [Hierarchy.fits]
  rcases hs with hs | hs
  · rcases ht with ht | ht
    · rw [hs, ht]
      cases hst with
      | same =>
        unfold Hierarchy.assignable
        split
        · rfl
        · rfl
        · exact hp.derives _ _ .refl
        · exact beq_self_eq_true _
      | subclass hab => exact hp.derives _ _ hab
    · rw [ht]
      exact h.assignable_error _
  · rw [hs]
    rfl

/-- Inference finds nothing in `e`, and gives it type `s` or takes it for failed. -/
def InfersBlurred (h : Hierarchy) (ctx : Context) (e : Expr) (s : Ty) : Prop :=
  (e.infer h ctx).2 = [] ∧ h.Blurs s (e.infer h ctx).1

section Inference

variable (hp : p.BlurredIn h)
include hp

lemma InfersBlurred.expecting {e : Expr} {t : Ty} (he : InfersBlurred h ctx e t) (line : Line) :
    expecting h t line (e.infer h ctx) = [] := by
  rw [expecting_eq_nil_iff]
  exact ⟨he.1, hp.fits (.same t) he.2 (h.blurs_refl t)⟩

lemma forall₂_fits_of_blurred {args : List Expr} {ts params ps : List Ty}
    (hargs : List.Forall₂ (InfersBlurred h ctx) args ts)
    (hsub : List.Forall₂ p.Assignable ts params) (hps : List.Forall₂ h.Blurs params ps) :
    List.Forall₂ (fun s t => h.fits s t = true) (args.map fun a => (a.infer h ctx).1) ps := by
  induction hargs generalizing params ps with
  | nil =>
    cases hsub
    cases hps
    exact .nil
  | cons ha _ ih =>
    cases hsub with
    | cons hst hsub =>
      cases hps with
      | cons ht hps => exact .cons (hp.fits hst ha.2 ht) (ih hsub hps)

/-- A call of a method that is less known, or on a receiver that failed. -/
lemma InfersBlurred.call {e : Expr} {c m : String} {args : List Expr} {ts : List Ty} {s : Signature}
    (he : InfersBlurred h ctx e (.object c)) (hm : p.Nearest (p.HasMethod m) c s)
    (hargs : List.Forall₂ (InfersBlurred h ctx) args ts)
    (hsub : List.Forall₂ p.Assignable ts s.params) (line : Line) :
    InfersBlurred h ctx (.call e m args line) s.result := by
  have hnone : ∀ a ∈ args, (a.infer h ctx).2 = [] := by
    intro a ha
    obtain ⟨t, _, ht⟩ := exists_mem_of_forall₂ hargs ha
    exact ht.1
  have hlines : (args.map Expr.line).length = (args.map fun a => (a.infer h ctx).1).length := by
    simp
  obtain ⟨t, ht, hblur⟩ : ∃ t, (Expr.call e m args line).infer h ctx = (t, []) ∧
      h.Blurs s.result t := by
    simp only [Expr.infer_call_eq_iff, judgeCall_zip_eq_iff _ _ _ _ _ hlines]
    -- what is called on a failed receiver has failed too, and nothing is told of it
    rcases he.2 with hobj | herr
    · obtain ⟨i, hi, hps, hres⟩ := hp.method c m s (Hierarchy.isSome_of_settled_eq hobj) hm
      have hfits := forall₂_fits_of_blurred hp hargs hsub hps
      exact ⟨_, ⟨he.1, hnone, .inr ⟨c, i, hobj, hi, hfits, rfl⟩⟩, hres.settled⟩
    · exact ⟨.error, ⟨he.1, hnone, .inl ⟨herr, rfl⟩⟩, h.blurs_error _⟩
  rw [InfersBlurred, ht]
  exact ⟨rfl, hblur⟩

variable (hctx : ctx.SeesBlurred h self vars)
include hctx

/-- Where the rules give a type, inference with less known types finds nothing. -/
theorem HasType.infersBlurred {e : Expr} {s : Ty} (he : p.HasType self vars e s) :
    InfersBlurred h ctx e s := by
  induction e using Expr.induction generalizing s with
  | unary op e line ih =>
    obtain ⟨rfl, hop⟩ := hasType_unary_iff.1 he
    cases op
    rw [InfersBlurred, Expr.infer, (ih hop).expecting hp]
    exact ⟨rfl, h.blurs_refl _⟩
  | binary op l r line ihl ihr =>
    obtain ⟨rfl, hl, hr⟩ := hasType_binary_iff.1 he
    rw [InfersBlurred, Expr.infer, (ihl hl).expecting hp, (ihr hr).expecting hp]
    exact ⟨rfl, h.blurs_refl _⟩
  | arrayLookup a i line iha ihi =>
    obtain ⟨rfl, ha, hi⟩ := hasType_arrayLookup_iff.1 he
    rw [InfersBlurred, Expr.infer, (iha ha).expecting hp, (ihi hi).expecting hp]
    exact ⟨rfl, h.blurs_refl _⟩
  | arrayLength a line ih =>
    obtain ⟨rfl, ha⟩ := hasType_arrayLength_iff.1 he
    rw [InfersBlurred, Expr.infer, (ih ha).expecting hp]
    exact ⟨rfl, h.blurs_refl _⟩
  | call e m args line ihe ihargs =>
    cases he with
    | call _ he hm hargs hsub =>
      have hblurred := forall₂_imp_of_mem hargs fun a ha _ => ihargs a ha
      exact (ihe he).call hp hm hblurred hsub line
  | newArray n line ih =>
    obtain ⟨rfl, hn⟩ := hasType_newArray_iff.1 he
    rw [InfersBlurred, Expr.infer, (ih hn).expecting hp]
    exact ⟨rfl, h.blurs_refl _⟩
  | newObject c line =>
    obtain ⟨rfl, hc⟩ := hasType_newObject_iff.1 he
    rw [InfersBlurred, Expr.infer, if_pos (hp.known c hc)]
    exact ⟨rfl, h.blurs_refl _⟩
  | this line =>
    rw [hasType_this_iff.1 he, InfersBlurred, Expr.infer, hctx.owner]
    exact ⟨rfl, h.blurs_refl _⟩
  | identifier x line =>
    obtain ⟨t, ht, hblur⟩ := hctx.resolve x s (hasType_identifier_iff.1 he)
    rw [InfersBlurred, (Expr.infer_identifier_eq_iff x line _).2 ⟨t, ht, rfl⟩]
    exact ⟨rfl, hblur.settled⟩
  | intLiteral n line =>
    rw [hasType_intLiteral_iff.1 he]
    exact ⟨rfl, h.blurs_refl _⟩
  | boolLiteral b line =>
    rw [hasType_boolLiteral_iff.1 he]
    exact ⟨rfl, h.blurs_refl _⟩

theorem StmtTyped.check_blurred {s : Stmt} (hs : p.StmtTyped self vars s) : s.check h ctx = [] := by
  have hexpr : ∀ {e t}, p.HasType self vars e t → InfersBlurred h ctx e t :=
    fun he => he.infersBlurred hp hctx
  have hcond : ∀ {e}, p.HasType self vars e .boolean → e.checkAsCondition h ctx = [] := by
    intro e he
    rw [Expr.checkAsCondition_eq_nil_iff]
    exact ⟨(hexpr he).1, hp.fits (.same _) (hexpr he).2 (h.blurs_refl _)⟩
  induction s using Stmt.induction with
  | block body line ih =>
    cases hs with
    | block _ hbody =>
      rw [Stmt.check, Stmt.checkAll_eq_flatMap, List.flatMap_eq_nil_iff]
      exact fun s hs => ih s hs (hbody s hs)
  | branch cond yes no line ihyes ihno =>
    cases hs with
    | branch _ hc hyes hno => rw [Stmt.check, hcond hc, ihyes hyes, ihno hno]; rfl
  | loop cond body line ih =>
    cases hs with
    | loop _ hc hbody => rw [Stmt.check, hcond hc, ih hbody]; rfl
  | print e line =>
    cases hs with
    | print _ he => exact (hexpr he).expecting hp _
  | assign x e line =>
    cases hs with
    | assign _ hx he hsub =>
      obtain ⟨t, ht, hblur⟩ := hctx.resolve x _ hx
      rw [Stmt.check, checkAssign_eq_nil_iff]
      exact ⟨t, ht, (hexpr he).1, hp.fits hsub (hexpr he).2 hblur.settled⟩
  | assignAt x i e line =>
    cases hs with
    | assignAt _ hx hi he =>
      obtain ⟨t, ht, hblur⟩ := hctx.resolve x _ hx
      rw [Stmt.check, checkAssignAt_eq_nil_iff]
      exact ⟨⟨t, ht, hp.fits (.same _) hblur.settled (h.blurs_refl _)⟩,
        (hexpr hi).expecting hp _, (hexpr he).expecting hp _⟩

end Inference

end Program

end MiniJava
