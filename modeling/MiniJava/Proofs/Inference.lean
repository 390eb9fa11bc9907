import MiniJava.Proofs.Lookup
import MiniJava.Typing.Stmt

/-!
# Inference against the typing rules

Inference works with a type for failed expressions and keeps going; the rules know nothing of it.
In a program whose declared types all exist, an expression without findings has exactly the type
that the rules give it, and a statement without findings obeys the rules.
-/

namespace MiniJava
open Relation

@[elab_as_elim]
theorem Expr.induction {P : Expr → Prop}
    (unary : ∀ op e line, P e → P (.unary op e line))
    (binary : ∀ op l r line, P l → P r → P (.binary op l r line))
    (arrayLookup : ∀ a i line, P a → P i → P (.arrayLookup a i line))
    (arrayLength : ∀ a line, P a → P (.arrayLength a line))
    (call : ∀ e m args line, P e → (∀ a ∈ args, P a) → P (.call e m args line))
    (newArray : ∀ n line, P n → P (.newArray n line))
    (newObject : ∀ c line, P (.newObject c line))
    (this : ∀ line, P (.this line))
    (identifier : ∀ x line, P (.identifier x line))
    (intLiteral : ∀ n line, P (.intLiteral n line))
    (boolLiteral : ∀ b line, P (.boolLiteral b line)) (e : Expr) : P e :=
  @Expr.rec P (fun es => ∀ e ∈ es, P e) unary binary arrayLookup arrayLength call newArray
    newObject this identifier intLiteral boolLiteral (by simp)
    (fun e es he hes => List.forall_mem_cons.2 ⟨he, hes⟩) e

@[elab_as_elim]
theorem Stmt.induction {P : Stmt → Prop}
    (block : ∀ body line, (∀ s ∈ body, P s) → P (.block body line))
    (branch : ∀ cond yes no line, P yes → P no → P (.branch cond yes no line))
    (loop : ∀ cond body line, P body → P (.loop cond body line))
    (print : ∀ e line, P (.print e line))
    (assign : ∀ x e line, P (.assign x e line))
    (assignAt : ∀ x i e line, P (.assignAt x i e line)) (s : Stmt) : P s :=
  @Stmt.rec P (fun ss => ∀ s ∈ ss, P s) block branch loop print assign assignAt (by simp)
    (fun s ss hs hss => List.forall_mem_cons.2 ⟨hs, hss⟩) s

lemma exists_mem_of_forall₂ {α β : Type} {R : α → β → Prop} {l : List α} {l' : List β}
    (hl : List.Forall₂ R l l') {a : α} (ha : a ∈ l) : ∃ b ∈ l', R a b := by
  induction hl with
  | nil => cases ha
  | @cons x y _ _ hxy _ ih =>
    rcases List.mem_cons.1 ha with rfl | ha
    · exact ⟨y, List.mem_cons_self, hxy⟩
    · obtain ⟨b, hb, hab⟩ := ih ha
      exact ⟨b, List.mem_cons_of_mem _ hb, hab⟩

lemma forall₂_imp_of_mem {α β : Type} {R S : α → β → Prop} {l : List α} {l' : List β}
    (hl : List.Forall₂ R l l') (himp : ∀ a ∈ l, ∀ b, R a b → S a b) : List.Forall₂ S l l' := by
  have hboth := (List.forall₂_and_left l l').2 ⟨himp, hl⟩
  exact hboth.imp fun a b hab => hab.1 b hab.2

/-! ### Where nothing is found -/

section NoFindings

variable {h : Hierarchy} {ctx : Context}

lemma expecting_eq_nil_iff (expected : Ty) (line : Line) (r : Ty × List Diagnostic) :
    expecting h expected line r = [] ↔ r.2 = [] ∧ h.fits r.1 expected = true := by
  rw [expecting, List.append_eq_nil_iff]
  cases h.fits r.1 expected <;> simp

lemma Expr.checkAsCondition_eq_nil_iff (e : Expr) :
    e.checkAsCondition h ctx = [] ↔
      (e.infer h ctx).2 = [] ∧ h.fits (e.infer h ctx).1 .boolean = true := by
  simp only [checkAsCondition, List.append_eq_nil_iff]
  cases h.fits (e.infer h ctx).1 .boolean <;> simp

lemma judgeArgs_zip_eq_nil_iff (method : String) (pos : Nat) {ts params : List Ty}
    {lines : List Line} (hlines : lines.length = ts.length) (hparams : params.length = ts.length) :
    judgeArgs h method pos (ts.zip lines) params = [] ↔
      List.Forall₂ (fun s t => h.fits s t = true) ts params := by
  induction ts generalizing pos lines params with
  | nil =>
    obtain rfl := List.length_eq_zero_iff.1 hparams
    simp [judgeArgs]
  | cons s ts ih =>
    obtain ⟨line, lines, rfl⟩ := List.exists_cons_of_length_eq_add_one hlines
    obtain ⟨t, params, rfl⟩ := List.exists_cons_of_length_eq_add_one hparams
    have hrest := ih (pos + 1) (Nat.succ.inj hlines) (Nat.succ.inj hparams)
    rw [List.zip_cons_cons, judgeArgs, List.append_eq_nil_iff, hrest, List.forall₂_cons]
    cases h.fits s t <;> simp

/-- A call without findings: the receiver failed before, or it is an object whose method takes the
arguments. -/
theorem judgeCall_zip_eq_iff (receiver t : Ty) (receiverLine line : Line) (method : String)
    {ts : List Ty} {lines : List Line} (hlines : lines.length = ts.length) :
    judgeCall h receiver receiverLine method (ts.zip lines) line = (t, []) ↔
      (h.settled receiver = .error ∧ t = .error) ∨
        ∃ c m, h.settled receiver = .object c ∧ h.findMethod? c method = some m ∧
          List.Forall₂ (fun s t => h.fits s t = true) ts m.paramTypes ∧
          h.settled m.returnType = t := by
  unfold judgeCall
  cases hs : h.settled receiver with
  | error =>
    rw [Prod.mk.injEq, eq_comm]
    simp
  | object c =>
    cases hm : h.findMethod? c method with
    | none => simp [hm]
    | some m =>
      have hsize : m.paramTypes.length = m.params.size := by
        simp [MethodInfo.paramTypes, Bindings.values, Bindings.size]
      have hzip : (ts.zip lines).length = ts.length := by
        rw [List.length_zip, hlines, Nat.min_self]
      by_cases hlen : m.params.size = ts.length
      · have hargs := judgeArgs_zip_eq_nil_iff (h := h) method 1 hlines (hsize.trans hlen)
        simp [hzip, hlen, hargs, hm, and_comm]
      · have hne : ¬ List.Forall₂ (fun s t => h.fits s t = true) ts m.paramTypes := by
          intro hall
          exact hlen (hsize.symm.trans hall.length_eq.symm)
        simp [hzip, hlen, hm, hne]
  | int => simp
  | boolean => simp
  | intArray => simp
  | stringArray => simp
  | void => simp

lemma Expr.infer_identifier_eq_iff (x : String) (line : Line) (t : Ty) :
    (Expr.identifier x line).infer h ctx = (t, []) ↔
      ∃ s, ctx.env.resolve x = some s ∧ h.settled s = t := by
  cases hx : ctx.env.resolve x <;> simp [Expr.infer, Context.typeOf, hx]

lemma Expr.infer_call_eq_iff (e : Expr) (m : String) (args : List Expr) (line : Line) (t : Ty) :
    (Expr.call e m args line).infer h ctx = (t, []) ↔
      (e.infer h ctx).2 = [] ∧ (∀ a ∈ args, (a.infer h ctx).2 = []) ∧
        judgeCall h (e.infer h ctx).1 e.line m
          ((args.map fun a => (a.infer h ctx).1).zip (args.map Expr.line)) line = (t, []) := by
  rw [Expr.infer]
  simp only [Expr.inferAll_eq_map, List.map_map, Prod.ext_iff, List.append_eq_nil_iff,
    List.flatMap_map, List.flatMap_eq_nil_iff, Function.comp_def]
  tauto

/-- An assignment without findings has a target, and its value fits there. -/
lemma checkAssign_eq_nil_iff (name : String) (e : Expr) (line : Line) :
    checkAssign h ctx name e line = [] ↔
      ∃ t, ctx.env.resolve name = some t ∧ (e.infer h ctx).2 = [] ∧
        h.fits (e.infer h ctx).1 (h.settled t) = true := by
  cases hr : ctx.env.resolve name with
  | none => simp [checkAssign, Context.typeOf, hr]
  | some t =>
    cases hf : h.fits (e.infer h ctx).1 (h.settled t) <;>
      simp [checkAssign, Context.typeOf, hr, hf]

lemma checkAssignAt_eq_nil_iff (name : String) (i e : Expr) (line : Line) :
    checkAssignAt h ctx name i e line = [] ↔
      (∃ t, ctx.env.resolve name = some t ∧ h.fits (h.settled t) .intArray = true) ∧
        i.checkAs h ctx .int = [] ∧ e.checkAs h ctx .int = [] := by
  cases hr : ctx.env.resolve name with
  | none => simp [checkAssignAt, Context.typeOf, hr]
  | some t =>
    cases hf : h.fits (h.settled t) .intArray <;>
      simp [checkAssignAt, Context.typeOf, hr, hf]

end NoFindings

namespace Program

variable {p : Program} {ctx : Context} {self : String} {vars : String → Ty → Prop}

/-! ### The rules read backwards -/

section Inversion

variable {t : Ty} {line : Line}

lemma hasType_unary_iff {op : UnaryOp} {e : Expr} :
    p.HasType self vars (.unary op e line) t ↔ t = .boolean ∧ p.HasType self vars e .boolean := by
  constructor
  · intro hty
    cases hty with
    | not _ he => exact ⟨rfl, he⟩
  · rintro ⟨rfl, he⟩
    cases op
    exact .not line he

lemma hasType_binary_iff {op : BinaryOp} {l r : Expr} :
    p.HasType self vars (.binary op l r line) t ↔
      t = op.result ∧ p.HasType self vars l op.operand ∧ p.HasType self vars r op.operand := by
  constructor
  · intro hty
    cases hty with
    | and _ hl hr => exact ⟨rfl, hl, hr⟩
    | less _ hl hr => exact ⟨rfl, hl, hr⟩
    | arith _ hop hl hr =>
      rcases hop with rfl | rfl | rfl
      · exact ⟨rfl, hl, hr⟩
      · exact ⟨rfl, hl, hr⟩
      · exact ⟨rfl, hl, hr⟩
  · rintro ⟨rfl, hl, hr⟩
    cases op with
    | and => exact .and line hl hr
    | less => exact .less line hl hr
    | add => exact .arith line (.inl rfl) hl hr
    | sub => exact .arith line (.inr (.inl rfl)) hl hr
    | mul => exact .arith line (.inr (.inr rfl)) hl hr

lemma hasType_arrayLookup_iff {a i : Expr} :
    p.HasType self vars (.arrayLookup a i line) t ↔
      t = .int ∧ p.HasType self vars a .intArray ∧ p.HasType self vars i .int := by
  constructor
  · intro hty
    cases hty with
    | arrayLookup _ ha hi => exact ⟨rfl, ha, hi⟩
  · rintro ⟨rfl, ha, hi⟩
    exact .arrayLookup line ha hi

lemma hasType_arrayLength_iff {a : Expr} :
    p.HasType self vars (.arrayLength a line) t ↔ t = .int ∧ p.HasType self vars a .intArray := by
  constructor
  · intro hty
    cases hty with
    | arrayLength _ ha => exact ⟨rfl, ha⟩
  · rintro ⟨rfl, ha⟩
    exact .arrayLength line ha

lemma hasType_newArray_iff {n : Expr} :
    p.HasType self vars (.newArray n line) t ↔ t = .intArray ∧ p.HasType self vars n .int := by
  constructor
  · intro hty
    cases hty with
    | newArray _ hn => exact ⟨rfl, hn⟩
  · rintro ⟨rfl, hn⟩
    exact .newArray line hn

lemma hasType_newObject_iff {c : String} :
    p.HasType self vars (.newObject c line) t ↔ t = .object c ∧ c ∈ p.classNames := by
  constructor
  · intro hty
    cases hty with
    | newObject _ hc => exact ⟨rfl, hc⟩
  · rintro ⟨rfl, hc⟩
    exact .newObject line hc

lemma hasType_this_iff : p.HasType self vars (.this line) t ↔ t = .object self := by
  constructor
  · intro hty
    cases hty
    rfl
  · rintro rfl
    exact .this line

lemma hasType_identifier_iff {x : String} :
    p.HasType self vars (.identifier x line) t ↔ vars x t := by
  constructor
  · intro hty
    cases hty with
    | identifier _ hx => exact hx
  · exact .identifier line

lemma hasType_intLiteral_iff {n : Int} :
    p.HasType self vars (.intLiteral n line) t ↔ t = .int := by
  constructor
  · intro hty
    cases hty
    rfl
  · rintro rfl
    exact .intLiteral n line

lemma hasType_boolLiteral_iff {b : Bool} :
    p.HasType self vars (.boolLiteral b line) t ↔ t = .boolean := by
  constructor
  · intro hty
    cases hty
    rfl
  · rintro rfl
    exact .boolLiteral b line

end Inversion

/-! ### Types that exist -/

/-- The type of some value: not that of a failed expression, and its class is declared. -/
def Known (p : Program) (t : Ty) : Prop := t ≠ .error ∧ p.Declared t

def SignaturesKnown (p : Program) : Prop :=
  ∀ m c s, p.HasMethod m c s → p.Known s.result ∧ ∀ t ∈ s.params, p.Known t

lemma settled_of_declared {t : Ty} (ht : p.Declared t) : p.hierarchy.settled t = t := by
  cases t with
  | object c => exact if_pos ((p.isSome_get?_hierarchy c).2 ht)
  | _ => rfl

lemma settled_of_not_declared {t : Ty} (ht : ¬ p.Declared t) : p.hierarchy.settled t = .error := by
  cases t with
  | object c => exact if_neg fun hc => ht ((p.isSome_get?_hierarchy c).1 hc)
  | _ => exact absurd trivial ht

lemma settled_of_known {t : Ty} (ht : p.Known t) : p.hierarchy.settled t = t :=
  settled_of_declared ht.2

lemma Assignable.eq_of_not_object {s t : Ty} (hst : p.Assignable s t)
    (ht : t.isObject = false) : s = t := by
  cases hst with
  | same => rfl
  | subclass _ => cases ht

/-- For types that exist, fitting is assignment compatibility. -/
theorem fits_iff (hr : p.Regular) {s t : Ty} (hs : p.Known s) (ht : p.Known t) :
    p.hierarchy.fits s t = true ↔ p.Assignable s t := by
  have hdist := hr.distinct
  rw [Hierarchy.fits, settled_of_known hs, settled_of_known ht]
  constructor
  · intro hfit
    unfold Hierarchy.assignable at hfit
    split at hfit
    · exact absurd rfl hs.1
    · exact absurd rfl ht.1
    · exact .subclass ((derivesFrom_hierarchy_iff hdist hr.closed _ _).1 hfit)
    · rw [beq_iff_eq.1 hfit]
      exact .same _
  · intro hst
    cases hst with
    | same =>
      unfold Hierarchy.assignable
      split
      · rfl
      · rfl
      · exact (derivesFrom_hierarchy_iff hdist hr.closed _ _).2 .refl
      · exact beq_self_eq_true _
    | subclass hab => exact (derivesFrom_hierarchy_iff hdist hr.closed _ _).2 hab

lemma Nearest.exists_above {α : Type} {Has : String → α → Prop} {c : String} {x : α}
    (hx : p.Nearest Has c x) : ∃ d, ReflTransGen p.Extends c d ∧ Has d x := by
  induction hx with
  | own hx => exact ⟨_, .refl, hx⟩
  | inherited _ hd _ ih =>
    obtain ⟨e, hde, he⟩ := ih
    exact ⟨e, hde.head hd, he⟩

/-- The context is inside class `c` and knows the variables `vars`, whose types exist. -/
structure Sees (p : Program) (ctx : Context) (c : String) (vars : String → Ty → Prop) : Prop where
  owner : ctx.owner.name = c
  declared : c ∈ p.classNames
  resolve : ∀ x t, ctx.env.resolve x = some t ↔ vars x t
  known : ∀ x t, vars x t → p.Known t

lemma HasType.known (hctx : p.Sees ctx self vars) (hsig : p.SignaturesKnown) {e : Expr} {t : Ty}
    (he : p.HasType self vars e t) : p.Known t := by
  cases he with
  | this => exact ⟨by simp, hctx.declared⟩
  | identifier _ hx => exact hctx.known _ _ hx
  | newObject _ hc => exact ⟨by simp, hc⟩
  | call _ _ hm _ _ =>
    obtain ⟨d, _, hd⟩ := hm.exists_above
    exact (hsig _ d _ hd).1
  | _ => exact ⟨by simp, trivial⟩

/-! ### Expressions -/

/-- Inference agrees with the rules on `e`. -/
def Agrees (p : Program) (ctx : Context) (self : String) (vars : String → Ty → Prop) (e : Expr) :
    Prop :=
  ∀ t, e.infer p.hierarchy ctx = (t, []) ↔ p.HasType self vars e t

lemma forall₂_hasType_iff {args : List Expr} (hargs : ∀ a ∈ args, p.Agrees ctx self vars a)
    (ts : List Ty) :
    List.Forall₂ (p.HasType self vars) args ts ↔
      (∀ a ∈ args, (a.infer p.hierarchy ctx).2 = []) ∧
        args.map (fun a => (a.infer p.hierarchy ctx).1) = ts := by
  induction args generalizing ts with
  | nil =>
    rw [List.forall₂_nil_left_iff]
    constructor
    · rintro rfl
      simp
    · rintro ⟨_, rfl⟩
      rfl
  | cons a args ih =>
    obtain ⟨ha, hargs⟩ := List.forall_mem_cons.1 hargs
    rw [List.forall₂_cons_left_iff, List.forall_mem_cons, List.map_cons]
    constructor
    · rintro ⟨t, ts, hat, hrest, rfl⟩
      obtain ⟨hnone, rfl⟩ := (ih hargs ts).1 hrest
      have hat := (ha t).2 hat
      exact ⟨⟨by rw [hat], hnone⟩, by rw [hat]⟩
    · rintro ⟨⟨hnone, hrest⟩, rfl⟩
      exact ⟨_, _, (ha _).1 (Prod.ext rfl hnone), (ih hargs _).2 ⟨hrest, rfl⟩, rfl⟩

lemma forall₂_known (hsig : p.SignaturesKnown) (hctx : p.Sees ctx self vars) {args : List Expr}
    {ts : List Ty} (hargs : List.Forall₂ (p.HasType self vars) args ts) :
    ∀ t ∈ ts, p.Known t := by
  induction hargs with
  | nil => simp
  | cons ha _ ih => exact List.forall_mem_cons.2 ⟨ha.known hctx hsig, ih⟩

lemma forall₂_fits_iff (hr : p.Regular) {ss ts : List Ty} (hss : ∀ s ∈ ss, p.Known s)
    (hts : ∀ t ∈ ts, p.Known t) :
    List.Forall₂ (fun s t => p.hierarchy.fits s t = true) ss ts ↔
      List.Forall₂ p.Assignable ss ts := by
  induction ss generalizing ts with
  | nil => rw [List.forall₂_nil_left_iff, List.forall₂_nil_left_iff]
  | cons s ss ih =>
    cases ts with
    | nil => simp
    | cons t ts =>
      obtain ⟨hs, hss⟩ := List.forall_mem_cons.1 hss
      obtain ⟨ht, hts⟩ := List.forall_mem_cons.1 hts
      rw [List.forall₂_cons, List.forall₂_cons, fits_iff hr hs ht, ih hss hts]

section Expressions

variable (hr : p.Regular) (hsig : p.SignaturesKnown) (hctx : p.Sees ctx self vars)
include hr hsig hctx

lemma Agrees.checkAs_iff {e : Expr} (he : p.Agrees ctx self vars e) {t : Ty} (ht : p.Known t) :
    (e.infer p.hierarchy ctx).2 = [] ∧ p.hierarchy.fits (e.infer p.hierarchy ctx).1 t = true ↔
      ∃ s, p.HasType self vars e s ∧ p.Assignable s t := by
  constructor
  · rintro ⟨hnone, hfit⟩
    have hty := (he _).1 (Prod.ext rfl hnone)
    exact ⟨_, hty, (fits_iff hr (hty.known hctx hsig) ht).1 hfit⟩
  · rintro ⟨s, hty, hst⟩
    rw [(he s).2 hty]
    exact ⟨rfl, (fits_iff hr (hty.known hctx hsig) ht).2 hst⟩

lemma Agrees.builtin_iff {e : Expr} (he : p.Agrees ctx self vars e) {t : Ty} (ht : p.Known t)
    (hobj : t.isObject = false) :
    (e.infer p.hierarchy ctx).2 = [] ∧ p.hierarchy.fits (e.infer p.hierarchy ctx).1 t = true ↔
      p.HasType self vars e t := by
  rw [he.checkAs_iff hr hsig hctx ht]
  constructor
  · rintro ⟨s, hs, hst⟩
    exact hst.eq_of_not_object hobj ▸ hs
  · intro hty
    exact ⟨t, hty, .same t⟩

lemma Agrees.expecting_iff {e : Expr} (he : p.Agrees ctx self vars e) {t : Ty} (ht : p.Known t)
    (hobj : t.isObject = false) (line : Line) :
    expecting p.hierarchy t line (e.infer p.hierarchy ctx) = [] ↔ p.HasType self vars e t := by
  rw [expecting_eq_nil_iff, he.builtin_iff hr hsig hctx ht hobj]

/-- The rule for calls, as the judgement of a call decides it. -/
lemma Agrees.call {e : Expr} {args : List Expr} (he : p.Agrees ctx self vars e)
    (hargs : ∀ a ∈ args, p.Agrees ctx self vars a) (m : String) (line : Line) :
    p.Agrees ctx self vars (.call e m args line) := by
  intro t
  have hlines : (args.map Expr.line).length =
      (args.map fun a => (a.infer p.hierarchy ctx).1).length := by simp
  rw [Expr.infer_call_eq_iff, judgeCall_zip_eq_iff _ _ _ _ _ hlines]
  constructor
  · rintro ⟨hnone, hnones, hcall⟩
    have hty := (he _).1 (Prod.ext rfl hnone)
    have hknown := hty.known hctx hsig
    have htys := (forall₂_hasType_iff hargs _).2 ⟨hnones, rfl⟩
    rw [settled_of_known hknown] at hcall
    -- a receiver that failed would be silent too, but it has a type by the rules
    rcases hcall with ⟨herr, _⟩ | ⟨c, i, hc, hi, hfits, rfl⟩
    · exact absurd herr hknown.1
    · rw [hc] at hty hknown
      have hm := (findMethod?_iff hr hknown.2 m i.sig).1 (by rw [hi]; rfl)
      obtain ⟨d, _, hd⟩ := hm.exists_above
      obtain ⟨hres, hps⟩ := hsig m d _ hd
      have hsub := (forall₂_fits_iff hr (forall₂_known hsig hctx htys) hps).1 hfits
      have heq : p.hierarchy.settled i.returnType = i.sig.result :=
        settled_of_known hres
      rw [heq]
      exact .call line hty hm htys hsub
  · intro hty
    cases hty with
    | @call _ c _ _ ts s _ hty hm htys hsub =>
      obtain ⟨hnones, rfl⟩ := (forall₂_hasType_iff hargs _).1 htys
      have hknown := hty.known hctx hsig
      obtain ⟨d, _, hd⟩ := hm.exists_above
      obtain ⟨hres, hps⟩ := hsig m d _ hd
      obtain ⟨i, hi, rfl⟩ := Option.map_eq_some_iff.1 ((findMethod?_iff hr hknown.2 m s).2 hm)
      have hfits := (forall₂_fits_iff hr (forall₂_known hsig hctx htys) hps).2 hsub
      rw [(he _).2 hty, settled_of_known hknown]
      exact ⟨rfl, hnones, .inr ⟨c, i, rfl, hi, hfits, settled_of_known hres⟩⟩

/-- Inference without findings and the rules give the same types. -/
theorem infer_eq_iff (e : Expr) : p.Agrees ctx self vars e := by
  have hbool : p.Known .boolean := ⟨by simp, trivial⟩
  have hint : p.Known .int := ⟨by simp, trivial⟩
  have harray : p.Known .intArray := ⟨by simp, trivial⟩
  induction e using Expr.induction with
  | unary op e line ih =>
    intro t
    cases op
    rw [Expr.infer, Prod.mk.injEq, ih.expecting_iff hr hsig hctx hbool rfl, hasType_unary_iff,
      eq_comm]
  | binary op l r line ihl ihr =>
    intro t
    have hknown : p.Known op.operand := by cases op <;> exact ⟨by simp [BinaryOp.operand], trivial⟩
    have hobj : op.operand.isObject = false := by cases op <;> rfl
    rw [Expr.infer, Prod.mk.injEq, List.append_eq_nil_iff,
      ihl.expecting_iff hr hsig hctx hknown hobj, ihr.expecting_iff hr hsig hctx hknown hobj,
      hasType_binary_iff, eq_comm]
  | arrayLookup a i line iha ihi =>
    intro t
    rw [Expr.infer, Prod.mk.injEq, List.append_eq_nil_iff,
      iha.expecting_iff hr hsig hctx harray rfl, ihi.expecting_iff hr hsig hctx hint rfl,
      hasType_arrayLookup_iff, eq_comm]
  | arrayLength a line ih =>
    intro t
    rw [Expr.infer, Prod.mk.injEq, ih.expecting_iff hr hsig hctx harray rfl,
      hasType_arrayLength_iff, eq_comm]
  | call e m args line ihe ihargs => exact ihe.call hr hsig hctx ihargs m line
  | newArray n line ih =>
    intro t
    rw [Expr.infer, Prod.mk.injEq, ih.expecting_iff hr hsig hctx hint rfl, hasType_newArray_iff,
      eq_comm]
  | newObject c line =>
    intro t
    rw [Expr.infer, hasType_newObject_iff, ← p.isSome_get?_hierarchy]
    cases hc : (p.hierarchy.get? c).isSome with
    | true => simp [eq_comm]
    | false => simp
  | this line =>
    intro t
    rw [Expr.infer, Prod.mk.injEq, hctx.owner, hasType_this_iff, eq_comm]
    exact and_iff_left rfl
  | identifier x line =>
    intro t
    rw [Expr.infer_identifier_eq_iff, hasType_identifier_iff]
    constructor
    · rintro ⟨s, hs, rfl⟩
      have hx := (hctx.resolve x s).1 hs
      rw [settled_of_known (hctx.known x s hx)]
      exact hx
    · intro hx
      exact ⟨t, (hctx.resolve x t).2 hx, settled_of_known (hctx.known x t hx)⟩
  | intLiteral n line =>
    intro t
    rw [Expr.infer, Prod.mk.injEq, hasType_intLiteral_iff, eq_comm]
    exact and_iff_left rfl
  | boolLiteral b line =>
    intro t
    rw [Expr.infer, Prod.mk.injEq, hasType_boolLiteral_iff, eq_comm]
    exact and_iff_left rfl

end Expressions

/-! ### Statements -/

/-- A statement without findings is one that obeys the rules. -/
theorem check_stmt_eq_nil_iff (hr : p.Regular) (hsig : p.SignaturesKnown)
    (hctx : p.Sees ctx self vars) (s : Stmt) :
    s.check p.hierarchy ctx = [] ↔ p.StmtTyped self vars s := by
  have hbool : p.Known .boolean := ⟨by simp, trivial⟩
  have hint : p.Known .int := ⟨by simp, trivial⟩
  have harray : p.Known .intArray := ⟨by simp, trivial⟩
  have hexpr := fun e => infer_eq_iff hr hsig hctx e
  have hcond : ∀ e, Expr.checkAsCondition p.hierarchy ctx e = [] ↔
      p.HasType self vars e .boolean := by
    intro e
    rw [Expr.checkAsCondition_eq_nil_iff, (hexpr e).builtin_iff hr hsig hctx hbool rfl]
  have hnum : ∀ e, Expr.checkAs p.hierarchy ctx .int e = [] ↔ p.HasType self vars e .int := by
    intro e
    rw [Expr.checkAs, (hexpr e).expecting_iff hr hsig hctx hint rfl]
  induction s using Stmt.induction with
  | block body line ih =>
    rw [Stmt.check, Stmt.checkAll_eq_flatMap, List.flatMap_eq_nil_iff]
    constructor
    · intro hbody
      exact .block line fun s hs => (ih s hs).1 (hbody s hs)
    · intro hty s hs
      cases hty with
      | block _ hbody => exact (ih s hs).2 (hbody s hs)
  | branch cond yes no line ihyes ihno =>
    rw [Stmt.check, List.append_eq_nil_iff, List.append_eq_nil_iff, hcond]
    constructor
    · rintro ⟨⟨hc, hyes⟩, hno⟩
      exact .branch line hc (ihyes.1 hyes) (ihno.1 hno)
    · intro hty
      cases hty with
      | branch _ hc hyes hno => exact ⟨⟨hc, ihyes.2 hyes⟩, ihno.2 hno⟩
  | loop cond body line ih =>
    rw [Stmt.check, List.append_eq_nil_iff, hcond]
    constructor
    · rintro ⟨hc, hbody⟩
      exact .loop line hc (ih.1 hbody)
    · intro hty
      cases hty with
      | loop _ hc hbody => exact ⟨hc, ih.2 hbody⟩
  | print e line =>
    rw [Stmt.check, hnum]
    constructor
    · exact .print line
    · intro hty
      cases hty with
      | print _ he => exact he
  | assign x e line =>
    rw [Stmt.check, checkAssign_eq_nil_iff]
    constructor
    · rintro ⟨t, hx, hvalue⟩
      have hx := (hctx.resolve x t).1 hx
      have ht := hctx.known x t hx
      rw [settled_of_known ht, (hexpr e).checkAs_iff hr hsig hctx ht] at hvalue
      obtain ⟨s, he, hst⟩ := hvalue
      exact .assign line hx he hst
    · intro hty
      cases hty with
      | @assign _ _ s t _ hx he hst =>
        have ht := hctx.known x t hx
        refine ⟨t, (hctx.resolve x t).2 hx, ?_⟩
        rw [settled_of_known ht, (hexpr e).checkAs_iff hr hsig hctx ht]
        exact ⟨s, he, hst⟩
  | assignAt x i e line =>
    rw [Stmt.check, checkAssignAt_eq_nil_iff, hnum, hnum]
    constructor
    · rintro ⟨⟨t, hx, hfit⟩, hi, he⟩
      have hx := (hctx.resolve x t).1 hx
      have ht := hctx.known x t hx
      rw [settled_of_known ht, fits_iff hr ht harray] at hfit
      exact .assignAt line (hfit.eq_of_not_object rfl ▸ hx) hi he
    · intro hty
      cases hty with
      | assignAt _ hx hi he =>
        refine ⟨⟨.intArray, (hctx.resolve x _).2 hx, ?_⟩, hi, he⟩
        rw [settled_of_known harray, fits_iff hr harray harray]
        exact .same _

end Program

end MiniJava
