import MiniJava.Proofs.Comparisons
import MiniJava.Proofs.Subsumption

/-!
# Proper types

The type of a failed expression fits everywhere, so a check may pass for no better reason than an
earlier failure. In an accepted program none does. Every expression, wherever it stands, has the
type of some value: it did not fail, it is not void, and if it is of a class, the class is known.
The same holds on both sides of every comparison of types that was made.
-/

namespace MiniJava

namespace Program

variable {p : Program} {ctx : Context} {self : String} {vars : String → Ty → Prop}

/-! ### Both sides of a comparison -/

lemma known_callComparisons (hr : p.Regular) (hsig : p.SignaturesKnown) {c m : String}
    {ts : List Ty} (hc : p.Known (.object c)) (hts : ∀ t ∈ ts, p.Known t) :
    ∀ x ∈ callComparisons p.hierarchy (.object c) m ts, p.Known x.actual ∧ p.Known x.expected := by
  intro x hx
  rw [callComparisons, settled_of_known hc] at hx
  cases hi : p.hierarchy.findMethod? c m with
  | none => simp [hi] at hx
  | some i =>
    simp only [hi] at hx
    split at hx
    · have hm := (findMethod?_iff hr hc.2 m i.sig).1 (by rw [hi]; rfl)
      obtain ⟨d, _, hd⟩ := hm.exists_above
      rw [← List.map_uncurry_zip_eq_zipWith] at hx
      obtain ⟨⟨s, t⟩, hst, rfl⟩ := List.mem_map.1 hx
      exact ⟨hts s (List.of_mem_zip hst).1, (hsig m d _ hd).2 t (List.of_mem_zip hst).2⟩
    · cases hx

lemma Sees.comparisonOf (hctx : p.Sees ctx self vars) {x : String} {t : Ty} (hx : vars x t)
    (compare : Ty → Comparison) :
    ctx.comparisonOf p.hierarchy x compare = [compare t] := by
  simp only [Context.comparisonOf, (hctx.resolve x t).2 hx,
    settled_of_known (hctx.known x t hx)]

section Known

variable (hr : p.Regular) (hsig : p.SignaturesKnown) (hctx : p.Sees ctx self vars)
include hr hsig hctx

lemma HasType.infer_eq {e : Expr} {t : Ty} (he : p.HasType self vars e t) :
    e.infer p.hierarchy ctx = (t, []) :=
  (infer_eq_iff hr hsig hctx e t).2 he

lemma known_comparisonsAs {e : Expr} {s t : Ty} (he : p.HasType self vars e s) (ht : p.Known t)
    (hinner : ∀ c ∈ e.comparisons p.hierarchy ctx, p.Known c.actual ∧ p.Known c.expected) :
    ∀ c ∈ e.comparisons p.hierarchy ctx ++ [⟨(e.infer p.hierarchy ctx).1, t⟩],
      p.Known c.actual ∧ p.Known c.expected := by
  rw [he.infer_eq hr hsig hctx, List.forall_mem_append]
  exact ⟨hinner, List.forall_mem_singleton.2 ⟨he.known hctx hsig, ht⟩⟩

theorem HasType.known_comparisons {e : Expr} {t : Ty} (he : p.HasType self vars e t) :
    ∀ c ∈ e.comparisons p.hierarchy ctx, p.Known c.actual ∧ p.Known c.expected := by
  have hbool : p.Known .boolean := ⟨by simp, trivial⟩
  have hint : p.Known .int := ⟨by simp, trivial⟩
  have harray : p.Known .intArray := ⟨by simp, trivial⟩
  induction e using Expr.induction generalizing t with
  | unary op e line ih =>
    cases he with
    | not _ he => exact known_comparisonsAs hr hsig hctx he hbool (ih he)
  | binary op l r line ihl ihr =>
    have hop : p.Known op.operand := by cases op <;> exact ⟨by simp [BinaryOp.operand], trivial⟩
    have hoperands : ∃ s u, p.HasType self vars l s ∧ p.HasType self vars r u := by
      cases he with
      | and _ hl hr => exact ⟨_, _, hl, hr⟩
      | less _ hl hr => exact ⟨_, _, hl, hr⟩
      | arith _ _ hl hr => exact ⟨_, _, hl, hr⟩
    obtain ⟨s, u, hl, hrhs⟩ := hoperands
    rw [Expr.comparisons, List.forall_mem_append]
    exact ⟨known_comparisonsAs hr hsig hctx hl hop (ihl hl),
      known_comparisonsAs hr hsig hctx hrhs hop (ihr hrhs)⟩
  | arrayLookup a i line iha ihi =>
    cases he with
    | arrayLookup _ ha hi =>
      rw [Expr.comparisons, List.forall_mem_append]
      exact ⟨known_comparisonsAs hr hsig hctx ha harray (iha ha),
        known_comparisonsAs hr hsig hctx hi hint (ihi hi)⟩
  | arrayLength a line ih =>
    cases he with
    | arrayLength _ ha => exact known_comparisonsAs hr hsig hctx ha harray (ih ha)
  | call e m args line ihe ihargs =>
    cases he with
    | @call _ c _ _ ts s _ he hm hargs hsub =>
      have hagree : ∀ a ∈ args, p.Agrees ctx self vars a :=
        fun a _ => infer_eq_iff hr hsig hctx a
      obtain ⟨hnones, htypes⟩ := (forall₂_hasType_iff hagree ts).1 hargs
      rw [Expr.comparisons, Expr.comparisonsAll_eq_flatMap, he.infer_eq hr hsig hctx, htypes,
        List.forall_mem_append, List.forall_mem_append]
      refine ⟨⟨ihe he, ?_⟩, known_callComparisons hr hsig (he.known hctx hsig)
        (forall₂_known hsig hctx hargs)⟩
      intro x hx
      obtain ⟨a, ha, hx⟩ := List.mem_flatMap.1 hx
      exact ihargs a ha ((hagree a ha _).1 (Prod.ext rfl (hnones a ha))) x hx
  | newArray n line ih =>
    cases he with
    | newArray _ hn => exact known_comparisonsAs hr hsig hctx hn hint (ih hn)
  | _ => simp [Expr.comparisons]

theorem StmtTyped.known_comparisons {s : Stmt} (hs : p.StmtTyped self vars s) :
    ∀ c ∈ s.comparisons p.hierarchy ctx, p.Known c.actual ∧ p.Known c.expected := by
  have hint : p.Known .int := ⟨by simp, trivial⟩
  have hexpr : ∀ {e : Expr} {s t : Ty}, p.HasType self vars e s → p.Known t →
      ∀ c ∈ e.comparisonsAs p.hierarchy ctx t, p.Known c.actual ∧ p.Known c.expected :=
    fun he ht => known_comparisonsAs hr hsig hctx he ht (he.known_comparisons hr hsig hctx)
  induction s using Stmt.induction with
  | block body line ih =>
    cases hs with
    | block _ hbody =>
      intro c hc
      rw [Stmt.comparisons, Stmt.comparisonsAll_eq_flatMap] at hc
      obtain ⟨s, hs, hc⟩ := List.mem_flatMap.1 hc
      exact ih s hs (hbody s hs) c hc
  | branch cond yes no line ihyes ihno =>
    cases hs with
    | branch _ hcond hyes hno =>
      rw [Stmt.comparisons, List.forall_mem_append, List.forall_mem_append]
      exact ⟨⟨hexpr hcond ⟨by simp, trivial⟩, ihyes hyes⟩, ihno hno⟩
  | loop cond body line ih =>
    cases hs with
    | loop _ hcond hbody =>
      rw [Stmt.comparisons, List.forall_mem_append]
      exact ⟨hexpr hcond ⟨by simp, trivial⟩, ih hbody⟩
  | print e line =>
    cases hs with
    | print _ he => exact hexpr he hint
  | assign x e line =>
    cases hs with
    | @assign _ _ s t _ hx he _ =>
      rw [Stmt.comparisons, hctx.comparisonOf hx]
      exact hexpr he (hctx.known x t hx)
  | assignAt x i e line =>
    cases hs with
    | assignAt _ hx hi he =>
      have ht := hctx.known x _ hx
      rw [Stmt.comparisons, hctx.comparisonOf hx, List.forall_mem_append,
        List.forall_mem_append]
      exact ⟨⟨List.forall_mem_singleton.2 ⟨ht, ht⟩, hexpr hi hint⟩, hexpr he hint⟩

end Known

/-- In an accepted program every comparison passes, and it compares types that exist. -/
theorem Clean.comparisons (hp : p.Clean) : ∀ c ∈ p.comparisons,
    p.hierarchy.fits c.actual c.expected = true ∧ p.Known c.actual ∧ p.Known c.expected := by
  have hr := hp.regular
  have hsig := hp.signaturesKnown
  -- none is told, so none has failed
  have hpass : ∀ cs : List Comparison, Comparison.failed p.hierarchy cs = [] →
      ∀ c ∈ cs, p.hierarchy.fits c.actual c.expected = true := by
    intro cs hnone c hc
    simpa using List.filter_eq_nil_iff.1 hnone c hc
  intro c hc
  rcases List.mem_append.1 hc with hc | hc
  · have hfailed := comparison?_check p.hierarchy p.mainContext p.main.body
    have htyped := (check_stmt_eq_nil_iff hr hsig p.sees_main _).1 hp.main
    rw [hp.main, List.filterMap_nil] at hfailed
    exact ⟨hpass _ hfailed.symm c hc, htyped.known_comparisons hr hsig p.sees_main c hc⟩
  · obtain ⟨d, hd, hc⟩ := List.mem_flatMap.1 hc
    obtain ⟨m, hm, hc⟩ := List.mem_flatMap.1 hc
    have hctx := hp.sees_method hd hm
    have hres := known_of_declared _ (hp.result_declared d hd m hm)
    have hfailed := comparison?_checkBody p.hierarchy (p.methodContext d m) m
    obtain ⟨hbody, t, ht, _⟩ := (checkBody_eq_nil_iff hr hsig hctx hres).1 (hp.bodies d hd m hm)
    rw [hp.bodies d hd m hm, List.filterMap_nil] at hfailed
    refine ⟨hpass _ hfailed.symm c hc, ?_⟩
    rcases List.mem_append.1 hc with hc | hc
    · obtain ⟨s, hs, hc⟩ := List.mem_flatMap.1 hc
      exact (hbody s hs).known_comparisons hr hsig hctx c hc
    · exact known_comparisonsAs hr hsig hctx ht hres (ht.known_comparisons hr hsig hctx) c hc

/-! ### No position for void -/

lemma Assignable.ne_void {s t : Ty} (hst : p.Assignable s t) (ht : t ≠ .void) : s ≠ .void := by
  cases hst with
  | same => exact ht
  | subclass _ => simp

lemma param_ne_void {m c : String} {s : Signature} (hm : p.HasMethod m c s) :
    ∀ t ∈ s.params, t ≠ .void := by
  cases hm with
  | main => simp
  | declared _ _ =>
    intro t ht
    obtain ⟨v, _, rfl⟩ := List.mem_map.1 ht
    exact v.type.type.ty_ne_void

lemma methodVar_ne_void {c : ClassDecl} {m : MethodDecl} {x : String} {t : Ty}
    (hx : p.MethodVar c m x t) : t ≠ .void := by
  rcases hx with ⟨v, _, _, rfl⟩ | ⟨_, hnear⟩
  · exact v.type.type.ty_ne_void
  · obtain ⟨_, _, _, _, _, f, _, _, rfl⟩ := hnear.exists_above
    exact f.type.type.ty_ne_void

lemma exists_param {args : List Expr} {ts params : List Ty}
    (hargs : List.Forall₂ (p.HasType self vars) args ts)
    (hsub : List.Forall₂ p.Assignable ts params) {x : Expr} (hx : x ∈ args) :
    ∃ t, p.HasType self vars x t ∧ ∃ param ∈ params, p.Assignable t param := by
  induction hargs generalizing params with
  | nil => cases hx
  | cons ha _ ih =>
    cases hsub with
    | @cons _ param _ params hparam hrest =>
      rcases List.mem_cons.1 hx with rfl | hx
      · exact ⟨_, ha, param, List.mem_cons_self, hparam⟩
      · obtain ⟨t, ht, param, hmem, hst⟩ := ih hrest hx
        exact ⟨t, ht, param, List.mem_cons_of_mem _ hmem, hst⟩

/-- The operand of a layer has a type other than void. -/
theorem HasType.plug_inv (frame : ExprFrame) {x : Expr} {u : Ty}
    (hu : p.HasType self vars (frame.plug x) u) : ∃ t, p.HasType self vars x t ∧ t ≠ .void := by
  cases frame with
  | unary op line =>
    cases hu with
    | not _ hx => exact ⟨_, hx, by simp⟩
  | binaryLeft op rhs line =>
    cases hu with
    | and _ hx _ => exact ⟨_, hx, by simp⟩
    | less _ hx _ => exact ⟨_, hx, by simp⟩
    | arith _ _ hx _ => exact ⟨_, hx, by simp⟩
  | binaryRight op lhs line =>
    cases hu with
    | and _ _ hx => exact ⟨_, hx, by simp⟩
    | less _ _ hx => exact ⟨_, hx, by simp⟩
    | arith _ _ _ hx => exact ⟨_, hx, by simp⟩
  | lookupArray index line =>
    cases hu with
    | arrayLookup _ hx _ => exact ⟨_, hx, by simp⟩
  | lookupIndex array line =>
    cases hu with
    | arrayLookup _ _ hx => exact ⟨_, hx, by simp⟩
  | lengthArray line =>
    cases hu with
    | arrayLength _ hx => exact ⟨_, hx, by simp⟩
  | callReceiver method args line =>
    cases hu with
    | call _ hx _ _ _ => exact ⟨_, hx, by simp⟩
  | callArg receiver method before after line =>
    cases hu with
    | call _ _ hm hargs hsub =>
      obtain ⟨t, ht, param, hparam, hst⟩ := exists_param hargs hsub (x := x) (by simp)
      obtain ⟨_, _, hd⟩ := hm.exists_above
      exact ⟨t, ht, hst.ne_void (param_ne_void hd param hparam)⟩
  | newArraySize line =>
    cases hu with
    | newArray _ hx => exact ⟨_, hx, by simp⟩

theorem HasType.fill_inv (hole : ExprHole) {e : Expr} {u : Ty}
    (hu : p.HasType self vars (hole.fill e) u) (hne : u ≠ .void) :
    ∃ t, p.HasType self vars e t ∧ t ≠ .void := by
  induction hole generalizing u with
  | nil => exact ⟨u, hu, hne⟩
  | cons frame hole ih =>
    obtain ⟨t, ht, hne⟩ := hu.plug_inv frame
    exact ih ht hne

lemma StmtTyped.slot_inv (hvars : ∀ x t, vars x t → t ≠ .void) (slot : StmtSlot) {x : Expr}
    (hs : p.StmtTyped self vars (slot.plug x)) : ∃ t, p.HasType self vars x t ∧ t ≠ .void := by
  cases slot with
  | branchCond yes no line =>
    cases hs with
    | branch _ hx _ _ => exact ⟨_, hx, by simp⟩
  | loopCond body line =>
    cases hs with
    | loop _ hx _ => exact ⟨_, hx, by simp⟩
  | print line =>
    cases hs with
    | print _ hx => exact ⟨_, hx, by simp⟩
  | assign name line =>
    cases hs with
    | assign _ hname hx hsub => exact ⟨_, hx, hsub.ne_void (hvars _ _ hname)⟩
  | assignAtIndex name value line =>
    cases hs with
    | assignAt _ _ hx _ => exact ⟨_, hx, by simp⟩
  | assignAtValue name index line =>
    cases hs with
    | assignAt _ _ _ hx => exact ⟨_, hx, by simp⟩

theorem StmtTyped.fill_inv (hvars : ∀ x t, vars x t → t ≠ .void) (hole : StmtHole) {e : Expr}
    (hs : p.StmtTyped self vars (hole.fill e)) : ∃ t, p.HasType self vars e t ∧ t ≠ .void := by
  obtain ⟨outer, slot, inner⟩ := hole
  induction outer with
  | nil =>
    obtain ⟨t, ht, hne⟩ := slot_inv hvars slot hs
    exact ht.fill_inv inner hne
  | cons frame outer ih => exact ih (plug_replace frame hs).1

theorem MethodTyped.fill_inv {c : ClassDecl} {m : MethodDecl} (hole : MethodHole) {e : Expr}
    (hm : p.MethodTyped c (hole.fill m e)) :
    ∃ t, p.HasType c.name (p.MethodVar c m) e t ∧ t ≠ .void := by
  cases hole with
  | body before hole after =>
    have hs := hm.body (hole.fill e) (List.mem_append_right _ List.mem_cons_self)
    exact hs.fill_inv (fun _ _ hx => methodVar_ne_void hx) hole
  | result hole =>
    obtain ⟨t, ht, hsub⟩ := hm.result
    exact ht.fill_inv hole (hsub.ne_void m.returnType.type.ty_ne_void)

/-! ### Calls -/

/-- A method found with another return type than void is declared in an ordinary class. -/
lemma exists_decl_of_findMethod? (hp : p.DistinctNames) {a m : String} {i : MethodInfo}
    (hi : p.hierarchy.findMethod? a m = some i) (hne : i.returnType ≠ .void) :
    ∃ d ∈ p.classes, ∃ n ∈ d.methods, n.info.1 = i := by
  rw [Hierarchy.findMethod?_eq] at hi
  obtain ⟨c, hc, hfound⟩ := Option.bind_eq_some_iff.1 hi
  obtain ⟨o, ho, hoi⟩ := List.exists_of_findSome?_eq_some hfound
  have hbound := ((mem_cons_ancestors_iff (p.hierarchy_keyed.bound hc) o).1 ho).1
  rw [Bindings.get?_eq_some_iff] at hoi
  rcases (get?_hierarchy_iff hp _ o).1 hbound with ⟨_, rfl⟩ | ⟨d, hd, _, rfl⟩
  · cases List.mem_singleton.1 hoi
    exact absurd rfl hne
  · rw [ClassDecl.entries_methods (hp.members d hd).methods] at hoi
    obtain ⟨n, hn, heq⟩ := List.mem_map.1 hoi
    exact ⟨d, hd, n, hn, congrArg Prod.snd heq⟩

end Program

/-! ### Accepted programs -/

/-- In this context the expression has the type `t` of some value; a call finds a method of an
ordinary class, and so not the one of the main class. -/
structure Checked.ProperlyTyped (checked : Checked) (ctx : Context) (e : Expr) (t : Ty) : Prop where
  infer : e.infer checked.hierarchy ctx = (t, [])
  ne_error : t ≠ .error
  ne_void : t ≠ .void
  known : ∀ c, t = .object c → (checked.hierarchy.get? c).isSome = true
  call : ∀ receiver m args line, e = .call receiver m args line →
    ∃ c i, (receiver.infer checked.hierarchy ctx).1 = .object c ∧
      checked.hierarchy.findMethod? c m = some i ∧
      (∃ d ∈ checked.program.classes, ∃ n ∈ d.methods, n.info.1 = i) ∧
      checked.program.main.info.methods.get? mainMethod ≠ some i

namespace Program

variable {p : Program} {ctx : Context} {self : String} {vars : String → Ty → Prop}

lemma HasType.properlyTyped (hr : p.Regular) (hsig : p.SignaturesKnown)
    (hctx : p.Sees ctx self vars) {e : Expr} {t : Ty} (he : p.HasType self vars e t)
    (hne : t ≠ .void) : (⟨p, p.hierarchy⟩ : Checked).ProperlyTyped ctx e t := by
  have hknown := he.known hctx hsig
  refine ⟨he.infer_eq hr hsig hctx, hknown.1, hne, ?_, ?_⟩
  · rintro c rfl
    exact (p.isSome_get?_hierarchy c).2 hknown.2
  · rintro receiver m args line rfl
    cases he with
    | @call _ c _ _ ts s _ hreceiver hm _ _ =>
      have hc := (hreceiver.known hctx hsig).2
      obtain ⟨i, hi, rfl⟩ := Option.map_eq_some_iff.1 ((findMethod?_iff hr hc m s).2 hm)
      refine ⟨c, i, by rw [hreceiver.infer_eq hr hsig hctx], hi,
        exists_decl_of_findMethod? hr.distinct hi hne, ?_⟩
      intro hmain
      have hvoid := congrArg (Option.map MethodInfo.returnType) hmain
      exact hne (Option.some.inj hvoid).symm

/-- Acceptance hides nothing. In an accepted program every expression, wherever it stands, has the
type of some value, and no call finds the method of the main class; every comparison of types that
was made passed, and no failure was on either side of it. -/
theorem acceptance_hides_nothing {p : Program} {checked : Checked} (hok : p.check = .ok checked) :
    (∀ (hole : ProgramHole) (e : Expr), hole.fill e = p →
      ∃ ctx t, hole.context? checked.hierarchy = some ctx ∧ checked.ProperlyTyped ctx e t) ∧
    ∀ c ∈ p.comparisons, checked.hierarchy.fits c.actual c.expected = true ∧
      checked.hierarchy.settled c.actual ≠ .error ∧
      checked.hierarchy.settled c.expected ≠ .error := by
  obtain ⟨hp, rfl⟩ := (check_eq_ok_iff p checked).1 hok
  have hr := hp.regular
  have hsig := hp.signaturesKnown
  refine ⟨?_, ?_⟩
  · rintro hole e rfl
    cases hole with
    | main p hole =>
      have hctx := sees_main ((ProgramHole.main p hole).fill e)
      have htyped := (check_stmt_eq_nil_iff hr hsig hctx _).1 hp.main
      have hvars : ∀ x t, MainVar ((ProgramHole.main p hole).fill e) x t → t ≠ .void := by
        rintro x t ⟨_, rfl⟩
        simp
      obtain ⟨t, ht, hne⟩ := htyped.fill_inv hvars hole
      exact ⟨_, t, p.context?_mainClass, ht.properlyTyped hr hsig hctx hne⟩
    | method p before c after earlier m later hole =>
      have hc : { c with methods := earlier ++ hole.fill m e :: later } ∈
          ((ProgramHole.method p before c after earlier m later hole).fill e).classes :=
        List.mem_append_right _ List.mem_cons_self
      have hm : hole.fill m e ∈ earlier ++ hole.fill m e :: later :=
        List.mem_append_right _ List.mem_cons_self
      have hctx := hp.sees_method hc hm
      have hres := known_of_declared _ (hp.result_declared _ hc _ hm)
      have htyped := (checkBody_eq_nil_iff hr hsig hctx hres).1 (hp.bodies _ hc _ hm)
      have hcontext := context?_method hp.distinct hc hm
      obtain ⟨t, ht, hne⟩ := htyped.fill_inv hole
      rw [← hole.methodVar_fill _ _ m e] at ht
      rw [hole.context?_fill] at hcontext
      exact ⟨_, t, hcontext, ht.properlyTyped hr hsig hctx hne⟩
  · intro c hc
    obtain ⟨hfits, hactual, hexpected⟩ := hp.comparisons c hc
    rw [settled_of_known hactual, settled_of_known hexpected]
    exact ⟨hfits, hactual.1, hexpected.1⟩

/-- An object of the subclass `B` is handed over where one of class `A` is wanted. -/
def handedOver : Program where
  main := ⟨"Main", "args", .print (.call (.newObject "A" none) "m" [.newObject "B" none] none) none,
    none⟩
  classes :=
    [⟨1, "A", none, [], [⟨2, ⟨.int, none⟩, "m", [⟨⟨.ofClass "A", none⟩, "a", none⟩], [], [],
        .intLiteral 0 none, none⟩], none⟩,
      ⟨3, "B", some "A", [], [], none⟩]
  line := none

/-- The call in the main statement is properly typed, and `B` is compared with `A` as it should. -/
theorem acceptance_hides_nothing_handedOver :
    handedOver.check = .ok ⟨handedOver, handedOver.hierarchy⟩ ∧
      (∃ ctx t, (ProgramHole.main handedOver ⟨[], .print none, []⟩).context? handedOver.hierarchy =
          some ctx ∧
        (⟨handedOver, handedOver.hierarchy⟩ : Checked).ProperlyTyped ctx
          (.call (.newObject "A" none) "m" [.newObject "B" none] none) t) ∧
      handedOver.comparisons = [⟨.object "B", .object "A"⟩, ⟨.int, .int⟩, ⟨.int, .int⟩] ∧
      handedOver.hierarchy.settled (.object "B") ≠ .error ∧
      handedOver.hierarchy.settled (.object "A") ≠ .error := by
  have hok : handedOver.check = .ok ⟨handedOver, handedOver.hierarchy⟩ := by rfl
  have hcomparisons : handedOver.comparisons =
      [⟨.object "B", .object "A"⟩, ⟨.int, .int⟩, ⟨.int, .int⟩] := by decide
  obtain ⟨htypes, hcompared⟩ := acceptance_hides_nothing hok
  obtain ⟨_, hactual, hexpected⟩ :=
    hcompared ⟨.object "B", .object "A"⟩ (hcomparisons ▸ List.mem_cons_self)
  exact ⟨hok, htypes (.main handedOver ⟨[], .print none, []⟩) _ rfl, hcomparisons, hactual,
    hexpected⟩

end Program

end MiniJava
