import MiniJava.Proofs.Acceptance
import MiniJava.Proofs.Holes

/-!
# Subsumption

An expression may be replaced by one of a more special type wherever it stands. One layer of code at
a time, the rules keep the type of everything around the expression; the checker sees the
replacement in code only, so it works with the same hierarchy and the same contexts as before.
-/

namespace MiniJava
open Relation

namespace Program

variable {p : Program} {self : String} {vars : String → Ty → Prop}

/-! ### More special types -/

lemma Assignable.trans {r s t : Ty} (hrs : p.Assignable r s) (hst : p.Assignable s t) :
    p.Assignable r t := by
  cases hst with
  | same => exact hrs
  | subclass hbc =>
    cases hrs with
    | same => exact .subclass hbc
    | subclass hab => exact .subclass (hab.trans hbc)

/-- A subclass answers the calls of its superclass with the same signature. -/
lemma Nearest.of_subclass (hover : p.OverridesSame) {a b m : String} {s : Signature}
    (hab : ReflTransGen p.Extends a b) (hs : p.Nearest (p.HasMethod m) b s) :
    p.Nearest (p.HasMethod m) a s := by
  induction hab using ReflTransGen.head_induction_on with
  | refl => exact hs
  | @head a c hac _ ih =>
    by_cases hown : ∃ t, p.HasMethod m a t
    · -- declared anew, but `s` comes from a class above, so with the same signature
      obtain ⟨t, ht⟩ := hown
      obtain ⟨d, hcd, hd⟩ := ih.exists_above
      rw [← hover a d (.head' hac hcd) m t s ht hd]
      exact .own ht
    · exact .inherited (not_exists.1 hown) hac ih

/-- The expression has a type, and it goes for `t`. -/
def GoesFor (p : Program) (self : String) (vars : String → Ty → Prop) (e : Expr) (t : Ty) : Prop :=
  ∃ s, p.HasType self vars e s ∧ p.Assignable s t

lemma HasType.goesFor {e : Expr} {t : Ty} (he : p.HasType self vars e t) :
    p.GoesFor self vars e t :=
  ⟨t, he, .same t⟩

lemma GoesFor.trans {e : Expr} {s t : Ty} (he : p.GoesFor self vars e s)
    (hst : p.Assignable s t) : p.GoesFor self vars e t := by
  obtain ⟨r, hr, hrs⟩ := he
  exact ⟨r, hr, hrs.trans hst⟩

lemma GoesFor.hasType {e : Expr} {t : Ty} (he : p.GoesFor self vars e t)
    (ht : t.isObject = false) : p.HasType self vars e t := by
  obtain ⟨s, hs, hst⟩ := he
  rw [← hst.eq_of_not_object ht]
  exact hs

/-! ### One layer -/

lemma forall₂_args_replace {before after : List Expr} {x : Expr} {ts params : List Ty}
    (hargs : List.Forall₂ (p.HasType self vars) (before ++ x :: after) ts)
    (hsub : List.Forall₂ p.Assignable ts params) :
    ∃ t, p.HasType self vars x t ∧ ∀ y, p.GoesFor self vars y t →
      ∃ us, List.Forall₂ (p.HasType self vars) (before ++ y :: after) us ∧
        List.Forall₂ p.Assignable us params := by
  induction before generalizing ts params with
  | nil =>
    cases hargs with
    | @cons _ t _ _ hx hafter =>
      cases hsub with
      | cons ht hts =>
        refine ⟨t, hx, ?_⟩
        intro y hy
        obtain ⟨u, hyu, hu⟩ := hy.trans ht
        exact ⟨_, .cons hyu hafter, .cons hu hts⟩
  | cons a before ih =>
    cases hargs with
    | cons ha hrest =>
      cases hsub with
      | cons hat hts =>
        obtain ⟨t, hx, hreplace⟩ := ih hrest hts
        refine ⟨t, hx, ?_⟩
        intro y hy
        obtain ⟨us, hus, hsub⟩ := hreplace y hy
        exact ⟨_, .cons ha hus, .cons hat hsub⟩

/-- The operand of a layer has a type, and whatever goes for that type leaves the type of the layer
as it is. -/
theorem HasType.plug_replace (hover : p.OverridesSame) (frame : ExprFrame) {x : Expr} {u : Ty}
    (hu : p.HasType self vars (frame.plug x) u) :
    ∃ t, p.HasType self vars x t ∧
      ∀ y, p.GoesFor self vars y t → p.HasType self vars (frame.plug y) u := by
  cases frame with
  | unary op line =>
    cases hu with
    | not _ hx => exact ⟨_, hx, fun y hy => .not line (hy.hasType rfl)⟩
  | binaryLeft op rhs line =>
    cases hu with
    | and _ hx hr => exact ⟨_, hx, fun y hy => .and line (hy.hasType rfl) hr⟩
    | less _ hx hr => exact ⟨_, hx, fun y hy => .less line (hy.hasType rfl) hr⟩
    | arith _ hop hx hr => exact ⟨_, hx, fun y hy => .arith line hop (hy.hasType rfl) hr⟩
  | binaryRight op lhs line =>
    cases hu with
    | and _ hl hx => exact ⟨_, hx, fun y hy => .and line hl (hy.hasType rfl)⟩
    | less _ hl hx => exact ⟨_, hx, fun y hy => .less line hl (hy.hasType rfl)⟩
    | arith _ hop hl hx => exact ⟨_, hx, fun y hy => .arith line hop hl (hy.hasType rfl)⟩
  | lookupArray index line =>
    cases hu with
    | arrayLookup _ hx hi => exact ⟨_, hx, fun y hy => .arrayLookup line (hy.hasType rfl) hi⟩
  | lookupIndex array line =>
    cases hu with
    | arrayLookup _ ha hx => exact ⟨_, hx, fun y hy => .arrayLookup line ha (hy.hasType rfl)⟩
  | lengthArray line =>
    cases hu with
    | arrayLength _ hx => exact ⟨_, hx, fun y hy => .arrayLength line (hy.hasType rfl)⟩
  | callReceiver method args line =>
    cases hu with
    | call _ hx hm hargs hsub =>
      refine ⟨_, hx, ?_⟩
      -- the only layer whose type depends on that of the operand
      rintro y ⟨s, hy, hs⟩
      cases hs with
      | same => exact .call line hy hm hargs hsub
      | subclass hab => exact .call line hy (hm.of_subclass hover hab) hargs hsub
  | callArg receiver method before after line =>
    cases hu with
    | call _ hrecv hm hargs hsub =>
      obtain ⟨t, hx, hreplace⟩ := forall₂_args_replace hargs hsub
      refine ⟨t, hx, ?_⟩
      intro y hy
      obtain ⟨us, hus, hsub⟩ := hreplace y hy
      exact .call line hrecv hm hus hsub
  | newArraySize line =>
    cases hu with
    | newArray _ hx => exact ⟨_, hx, fun y hy => .newArray line (hy.hasType rfl)⟩

theorem StmtTyped.slot_replace (slot : StmtSlot) {x : Expr}
    (hs : p.StmtTyped self vars (slot.plug x)) :
    ∃ t, p.HasType self vars x t ∧
      ∀ y, p.GoesFor self vars y t → p.StmtTyped self vars (slot.plug y) := by
  cases slot with
  | branchCond yes no line =>
    cases hs with
    | branch _ hx hyes hno => exact ⟨_, hx, fun y hy => .branch line (hy.hasType rfl) hyes hno⟩
  | loopCond body line =>
    cases hs with
    | loop _ hx hbody => exact ⟨_, hx, fun y hy => .loop line (hy.hasType rfl) hbody⟩
  | print line =>
    cases hs with
    | print _ hx => exact ⟨_, hx, fun y hy => .print line (hy.hasType rfl)⟩
  | assign name line =>
    cases hs with
    | assign _ hname hx hsub =>
      refine ⟨_, hx, ?_⟩
      intro y hy
      obtain ⟨u, hyu, hu⟩ := hy.trans hsub
      exact .assign line hname hyu hu
  | assignAtIndex name value line =>
    cases hs with
    | assignAt _ hname hx hv => exact ⟨_, hx, fun y hy => .assignAt line hname (hy.hasType rfl) hv⟩
  | assignAtValue name index line =>
    cases hs with
    | assignAt _ hname hi hx => exact ⟨_, hx, fun y hy => .assignAt line hname hi (hy.hasType rfl)⟩

lemma StmtTyped.plug_replace (frame : StmtFrame) {s : Stmt}
    (hs : p.StmtTyped self vars (frame.plug s)) :
    p.StmtTyped self vars s ∧
      ∀ s', p.StmtTyped self vars s' → p.StmtTyped self vars (frame.plug s') := by
  cases frame with
  | block before after line =>
    cases hs with
    | block _ hall =>
      rw [List.forall_mem_append, List.forall_mem_cons] at hall
      refine ⟨hall.2.1, ?_⟩
      intro s' hs'
      refine .block line ?_
      rw [List.forall_mem_append, List.forall_mem_cons]
      exact ⟨hall.1, hs', hall.2.2⟩
  | branchYes cond no line =>
    cases hs with
    | branch _ hcond hyes hno => exact ⟨hyes, fun s' hs' => .branch line hcond hs' hno⟩
  | branchNo cond yes line =>
    cases hs with
    | branch _ hcond hyes hno => exact ⟨hno, fun s' hs' => .branch line hcond hyes hs'⟩
  | loopBody cond line =>
    cases hs with
    | loop _ hcond hbody => exact ⟨hbody, fun s' hs' => .loop line hcond hs'⟩

/-! ### Whole expressions, statements and methods -/

/-- The first expression goes for every type of the second. -/
def StandsFor (p : Program) (self : String) (vars : String → Ty → Prop) (e' e : Expr) : Prop :=
  ∀ t, p.HasType self vars e t → p.GoesFor self vars e' t

/-- Every expression around the hole has the same type with `e'` in the hole as with `e`. -/
def KeepsTypes (p : Program) (self : String) (vars : String → Ty → Prop) (e' e : Expr)
    (hole : ExprHole) : Prop :=
  ∀ around : ExprHole, around <:+ hole → around ≠ [] →
    ∃ t, p.HasType self vars (around.fill e) t ∧ p.HasType self vars (around.fill e') t

theorem HasType.fill_replace (hover : p.OverridesSame) (hole : ExprHole) {e e' : Expr}
    (he : p.StandsFor self vars e' e) {u : Ty} (hu : p.HasType self vars (hole.fill e) u) :
    p.GoesFor self vars (hole.fill e') u ∧ p.KeepsTypes self vars e' e hole := by
  induction hole generalizing u with
  | nil =>
    refine ⟨he u hu, ?_⟩
    intro around hsuffix hne
    exact absurd (List.suffix_nil.1 hsuffix) hne
  | cons frame hole ih =>
    obtain ⟨t, hx, hreplace⟩ := hu.plug_replace hover frame
    obtain ⟨hgoes, hkeep⟩ := ih hx
    have hu' := hreplace _ hgoes
    refine ⟨hu'.goesFor, ?_⟩
    intro around hsuffix hne
    rcases List.suffix_cons_iff.1 hsuffix with rfl | hsuffix
    · exact ⟨u, hu, hu'⟩
    · exact hkeep around hsuffix hne

theorem StmtTyped.fill_replace (hover : p.OverridesSame) (hole : StmtHole) {e e' : Expr}
    (he : p.StandsFor self vars e' e) (hs : p.StmtTyped self vars (hole.fill e)) :
    p.StmtTyped self vars (hole.fill e') ∧ p.KeepsTypes self vars e' e hole.inner := by
  obtain ⟨outer, slot, inner⟩ := hole
  induction outer with
  | nil =>
    obtain ⟨t, hx, hreplace⟩ := slot_replace slot hs
    obtain ⟨hgoes, hkeep⟩ := hx.fill_replace hover inner he
    exact ⟨hreplace _ hgoes, hkeep⟩
  | cons frame outer ih =>
    obtain ⟨hinner, hreplace⟩ := plug_replace frame hs
    obtain ⟨hinner', hkeep⟩ := ih hinner
    exact ⟨hreplace _ hinner', hkeep⟩

theorem MethodTyped.fill_replace (hover : p.OverridesSame) {c : ClassDecl} {m : MethodDecl}
    (hole : MethodHole) {e e' : Expr} (he : p.StandsFor c.name (p.MethodVar c m) e' e)
    (hm : p.MethodTyped c (hole.fill m e)) :
    p.MethodTyped c (hole.fill m e') ∧
      p.KeepsTypes c.name (p.MethodVar c m) e' e hole.inner := by
  cases hole with
  | body before hole after =>
    obtain ⟨hbody, hresult⟩ := hm
    obtain ⟨hbefore, hrest⟩ := List.forall_mem_append.1 hbody
    obtain ⟨hs, hafter⟩ := List.forall_mem_cons.1 hrest
    obtain ⟨hs', hkeep⟩ := hs.fill_replace hover hole he
    refine ⟨⟨?_, hresult⟩, hkeep⟩
    exact List.forall_mem_append.2 ⟨hbefore, List.forall_mem_cons.2 ⟨hs', hafter⟩⟩
  | result hole =>
    obtain ⟨hbody, t, ht, hsub⟩ := hm
    obtain ⟨hgoes, hkeep⟩ := ht.fill_replace hover hole he
    exact ⟨⟨hbody, hgoes.trans hsub⟩, hkeep⟩

section Checker

variable {ctx : Context} (hr : p.Regular) (hsig : p.SignaturesKnown)
  (hctx : p.Sees ctx self vars)
include hr hsig hctx

/-- What the checker accepts in the place of an expression stands for it. -/
lemma standsFor_of_infer {e e' : Expr} (hnone : (e'.infer p.hierarchy ctx).2 = [])
    (hsub : p.hierarchy.assignable (e'.infer p.hierarchy ctx).1
      (e.infer p.hierarchy ctx).1 = true) :
    p.StandsFor self vars e' e := by
  intro t ht
  have ht' := (infer_eq_iff hr hsig hctx e' _).1 (Prod.ext rfl hnone)
  have hknown := ht.known hctx hsig
  have hknown' := ht'.known hctx hsig
  rw [(infer_eq_iff hr hsig hctx e t).2 ht] at hsub
  refine ⟨_, ht', (fits_iff hr hknown' hknown).1 ?_⟩
  rw [Hierarchy.fits, settled_of_known hknown, settled_of_known hknown']
  exact hsub

lemma KeepsTypes.infer_eq {e e' : Expr} {hole around : ExprHole}
    (hkeep : p.KeepsTypes self vars e' e hole) (hsuffix : around <:+ hole) (hne : around ≠ []) :
    ((around.fill e').infer p.hierarchy ctx).1 = ((around.fill e).infer p.hierarchy ctx).1 := by
  obtain ⟨t, ht, ht'⟩ := hkeep around hsuffix hne
  rw [(infer_eq_iff hr hsig hctx _ t).2 ht, (infer_eq_iff hr hsig hctx _ t).2 ht']

end Checker

end Program

/-! ### Programs that differ in code only -/

/-- The declaration without its code. -/
def MethodDecl.head (d : MethodDecl) : MethodDecl := { d with body := [], result := .this none }

def ClassDecl.head (d : ClassDecl) : ClassDecl := { d with methods := d.methods.map (·.head) }

lemma ClassDecl.info_head (d : ClassDecl) : d.head.info = d.info := by
  simp only [info, head, gather_map]
  rfl

lemma ClassDecl.info_of_head_eq {c d : ClassDecl} (hcd : c.head = d.head) : c.info = d.info := by
  rw [← c.info_head, hcd, d.info_head]

namespace Program

variable {p q : Program}

/-- The program without its code. -/
def heads (p : Program) : Program :=
  { p with
    main := { p.main with body := .block [] none }
    classes := p.classes.map (·.head) }

lemma collect_heads (h : Hierarchy) (p : Program) :
    Hierarchy.collect h p.heads = Hierarchy.collect h p := by
  have hstep : (fun (h : Hierarchy) (d : ClassDecl) => h.declareClass d.head) =
      Hierarchy.declareClass := by
    funext h d
    simp only [Hierarchy.declareClass, ClassDecl.info_head]
    rfl
  simp only [Hierarchy.collect, heads, gather_map, hstep]
  rfl

lemma collect_of_heads_eq (hq : q.heads = p.heads) (h : Hierarchy) :
    Hierarchy.collect h q = Hierarchy.collect h p := by
  rw [← collect_heads h q, hq, collect_heads]

lemma hierarchy_of_heads_eq (hq : q.heads = p.heads) : q.hierarchy = p.hierarchy :=
  congrArg Prod.fst (collect_of_heads_eq hq .empty)

/-- New code in an accepted program is checked in the old hierarchy, and nothing but the code can
be found fault with. -/
theorem Clean.of_heads_eq (hp : p.Clean) (hq : q.heads = p.heads)
    (hmain : q.main.body.check p.hierarchy p.mainContext = [])
    (hbodies : ∀ c ∈ q.classes, ∀ m ∈ c.methods,
      m.checkBody p.hierarchy (p.methodContext c m) m.info.1 = []) : q.Clean := by
  have hh := hierarchy_of_heads_eq hq
  have hclass : ∀ c ∈ q.classes, ∃ d ∈ p.classes, d.head = c.head := by
    intro c hc
    have hmem : c.head ∈ q.heads.classes := List.mem_map_of_mem hc
    rw [hq] at hmem
    exact List.mem_map.1 hmem
  have hdistinct : q.DistinctNames := by
    rw [← collect_eq_nil_iff, collect_of_heads_eq hq]
    exact (collect_eq_nil_iff p).2 hp.distinct
  have hcontext : q.mainContext = p.mainContext := by
    have hname : q.main.name = p.main.name := congrArg (·.main.name) hq
    have harg : q.main.arg = p.main.arg := congrArg (·.main.arg) hq
    simp only [mainContext, MainClass.info, hname, harg]
  -- the checks of a head do not read the code, so those of `c` are those of the old class `d`
  have hsupers : ∀ c ∈ q.classes, c.checkSuper p.hierarchy c.info.1 = [] := by
    intro c hc
    obtain ⟨d, hd, hdc⟩ := hclass c hc
    have hsuper : d.head.checkSuper p.hierarchy d.info.1 = [] := hp.supers d hd
    rw [hdc, ClassDecl.info_of_head_eq hdc] at hsuper
    exact hsuper
  have hfields : ∀ c ∈ q.classes, ∀ f ∈ c.fields, f.undeclared p.hierarchy = [] := by
    intro c hc
    obtain ⟨d, hd, hdc⟩ := hclass c hc
    have hfields : d.fields = c.fields := congrArg (·.fields) hdc
    rw [← hfields]
    exact hp.fields d hd
  have htypes : ∀ c ∈ q.classes, ∀ m ∈ c.methods, m.checkTypes p.hierarchy m.info.1 = [] := by
    intro c hc m hm
    obtain ⟨d, hd, hdc⟩ := hclass c hc
    have hmem : m.head ∈ c.head.methods := List.mem_map_of_mem hm
    rw [← hdc] at hmem
    obtain ⟨n, hn, hnm⟩ := List.mem_map.1 hmem
    have htypes : n.head.checkTypes p.hierarchy n.head.info.1 = [] := hp.types d hd n hn
    rw [hnm] at htypes
    exact htypes
  have hoverrides : ∀ c ∈ q.classes,
      c.overrideMismatches c.info.1 (p.hierarchy.ancestors c.info.1) = [] := by
    intro c hc
    obtain ⟨d, hd, hdc⟩ := hclass c hc
    have hsame : d.head.overrideMismatches d.info.1 (p.hierarchy.ancestors d.info.1) = [] :=
      hp.overrides d hd
    rw [hdc, ClassDecl.info_of_head_eq hdc] at hsame
    exact hsame
  rw [← hh] at hmain hsupers hfields htypes hoverrides
  refine ⟨hdistinct, hcontext ▸ hmain, hsupers, hfields, htypes, ?_, hoverrides⟩
  intro c hc m hm
  rw [methodContext, hh]
  exact hbodies c hc m hm

lemma Clean.check_of_heads_eq (hp : p.Clean) (hq : q.heads = p.heads)
    (hmain : q.main.body.check p.hierarchy p.mainContext = [])
    (hbodies : ∀ c ∈ q.classes, ∀ m ∈ c.methods,
      m.checkBody p.hierarchy (p.methodContext c m) m.info.1 = []) :
    q.check = .ok ⟨q, p.hierarchy⟩ := by
  rw [← hierarchy_of_heads_eq hq]
  exact (check_eq_ok_iff q _).2 ⟨hp.of_heads_eq hq hmain hbodies, rfl⟩

end Program

namespace MethodHole

variable (p : Program) (c : ClassDecl) (hole : MethodHole) (m : MethodDecl) (e : Expr)

lemma head_fill : (hole.fill m e).head = m.head := by
  cases hole <;> rfl

lemma returnType_fill : (hole.fill m e).returnType = m.returnType := by
  cases hole <;> rfl

lemma methodVar_fill : p.MethodVar c (hole.fill m e) = p.MethodVar c m := by
  cases hole <;> rfl

lemma methodContext_fill : p.methodContext c (hole.fill m e) = p.methodContext c m := by
  cases hole <;> rfl

lemma context?_fill (h : Hierarchy) : (hole.fill m e).context? h c = m.context? h c := by
  cases hole <;> rfl

end MethodHole

lemma ProgramHole.heads_fill (hole : ProgramHole) (e e' : Expr) :
    (hole.fill e').heads = (hole.fill e).heads := by
  cases hole with
  | main p hole => rfl
  | method p before c after earlier m later hole =>
    simp only [fill, Program.heads, ClassDecl.head, List.map_append, List.map_cons,
      MethodHole.head_fill]

namespace Program

lemma context?_method {p : Program} (hp : p.DistinctNames) {c : ClassDecl} (hc : c ∈ p.classes)
    {m : MethodDecl} (hm : m ∈ c.methods) :
    m.context? p.hierarchy c = some (p.methodContext c m) := by
  rw [MethodDecl.context?, live?_class hp.classes hc, Option.bind_some,
    live?_method (hp.members c hc).methods hm, Option.map_some]
  rfl

/-- The bodies of all methods are clean if one of them is exchanged for a clean one. -/
lemma bodies_replace (p : Program) {before after : List ClassDecl} {c : ClassDecl}
    {earlier later : List MethodDecl} {m m' : MethodDecl} (hhead : m'.head = m.head)
    (hall : ∀ d ∈ before ++ { c with methods := earlier ++ m :: later } :: after,
      ∀ n ∈ d.methods, n.checkBody p.hierarchy (p.methodContext d n) n.info.1 = [])
    (hnew : m'.checkBody p.hierarchy
      (p.methodContext { c with methods := earlier ++ m :: later } m') m'.info.1 = []) :
    ∀ d ∈ before ++ { c with methods := earlier ++ m' :: later } :: after,
      ∀ n ∈ d.methods, n.checkBody p.hierarchy (p.methodContext d n) n.info.1 = [] := by
  have hinfo : ClassDecl.info { c with methods := earlier ++ m' :: later } =
      ClassDecl.info { c with methods := earlier ++ m :: later } := by
    apply ClassDecl.info_of_head_eq
    simp only [ClassDecl.head, List.map_append, List.map_cons, hhead]
  simp only [List.forall_mem_append, List.forall_mem_cons] at hall ⊢
  obtain ⟨hbefore, ⟨hearlier, _, hlater⟩, hafter⟩ := hall
  simp only [methodContext, hinfo] at hearlier hlater hnew ⊢
  exact ⟨hbefore, ⟨hearlier, hnew, hlater⟩, hafter⟩

/-- In an accepted program an expression may be replaced, wherever it stands, by any expression
that is found correct there and whose type goes for the old one. The program is still accepted, and
every expression around the place has the type that it had. -/
theorem subsumption (hole : ProgramHole) (e : Expr) {checked : Checked}
    (hok : (hole.fill e).check = .ok checked) :
    ∃ ctx, hole.context? checked.hierarchy = some ctx ∧
      ∀ e' : Expr, (e'.infer checked.hierarchy ctx).2 = [] →
        checked.hierarchy.assignable (e'.infer checked.hierarchy ctx).1
          (e.infer checked.hierarchy ctx).1 = true →
        (hole.fill e').check = .ok ⟨hole.fill e', checked.hierarchy⟩ ∧
          ∀ around : ExprHole, around <:+ hole.inner → around ≠ [] →
            ((around.fill e').infer checked.hierarchy ctx).1 =
              ((around.fill e).infer checked.hierarchy ctx).1 := by
  obtain ⟨hp, rfl⟩ := (check_eq_ok_iff _ _).1 hok
  have hr := hp.regular
  have hsig := hp.signaturesKnown
  have hover := (overridesAgree_iff hr).1 hp.overridesAgree
  cases hole with
  | main p hole =>
    have hctx := sees_main ((ProgramHole.main p hole).fill e)
    have htyped := (check_stmt_eq_nil_iff hr hsig hctx _).1 hp.main
    refine ⟨_, p.context?_mainClass, ?_⟩
    intro e' hnone hsub
    have hheads := (ProgramHole.main p hole).heads_fill e e'
    have hstands := standsFor_of_infer hr hsig hctx hnone hsub
    obtain ⟨htyped', hkeep⟩ := htyped.fill_replace hover hole hstands
    have hmain := (check_stmt_eq_nil_iff hr hsig hctx _).2 htyped'
    refine ⟨hp.check_of_heads_eq hheads hmain hp.bodies, ?_⟩
    intro around hsuffix hne
    exact hkeep.infer_eq hr hsig hctx hsuffix hne
  | method p before c after earlier m later hole =>
    have hc : { c with methods := earlier ++ hole.fill m e :: later } ∈
        ((ProgramHole.method p before c after earlier m later hole).fill e).classes :=
      List.mem_append_right _ List.mem_cons_self
    have hm : hole.fill m e ∈ earlier ++ hole.fill m e :: later :=
      List.mem_append_right _ List.mem_cons_self
    have hctx := hp.sees_method hc hm
    have hres := known_of_declared _ (hp.result_declared _ hc _ hm)
    have htyped := (checkBody_eq_nil_iff hr hsig hctx hres).1 (hp.bodies _ hc _ hm)
    have hcontext := context?_method hp.distinct hc hm
    -- what the method declares is the same before and after, whatever fills the hole
    rw [hole.methodContext_fill, hole.methodVar_fill] at hctx
    rw [hole.context?_fill, hole.methodContext_fill] at hcontext
    rw [hole.returnType_fill] at hres
    refine ⟨_, hcontext, ?_⟩
    intro e' hnone hsub
    have hheads := (ProgramHole.method p before c after earlier m later hole).heads_fill e e'
    have hstands := standsFor_of_infer hr hsig hctx hnone hsub
    obtain ⟨htyped', hkeep⟩ := htyped.fill_replace hover hole hstands
    have hbody := (checkBody_eq_nil_iff hr hsig
      (by rw [hole.methodContext_fill, hole.methodVar_fill]; exact hctx)
      (by rw [hole.returnType_fill]; exact hres)).2 htyped'
    have hbodies := bodies_replace _ (by rw [hole.head_fill, hole.head_fill]) hp.bodies hbody
    refine ⟨hp.check_of_heads_eq hheads hp.main hbodies, ?_⟩
    intro around hsuffix hne
    exact hkeep.infer_eq hr hsig hctx hsuffix hne

/-- The receiver of the call in the main statement. -/
def overridingChainReceiver : ProgramHole :=
  .main overridingChain ⟨[], .print none, [.callReceiver "m" [.intLiteral 1 none] none]⟩

/-- The call is made on an object of class `C`, two classes below the one that was written, and
finds another method. -/
theorem subsumption_overridingChain :
    (overridingChainReceiver.fill (.newObject "A" none)).check =
        .ok ⟨overridingChain, overridingChain.hierarchy⟩ ∧
      (overridingChainReceiver.fill (.newObject "C" none)).check =
        .ok ⟨overridingChainReceiver.fill (.newObject "C" none), overridingChain.hierarchy⟩ := by
  have hok : (overridingChainReceiver.fill (.newObject "A" none)).check =
      .ok ⟨overridingChain, overridingChain.hierarchy⟩ := by rfl
  obtain ⟨ctx, _, hreplace⟩ := subsumption overridingChainReceiver (.newObject "A" none) hok
  exact ⟨hok, (hreplace (.newObject "C" none) rfl rfl).1⟩

end Program

end MiniJava
