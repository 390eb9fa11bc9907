import MiniJava.Proofs.Findings
import MiniJava.Proofs.Inference
import MiniJava.Proofs.Overriding

/-!
# Accepted programs are the well-typed ones

The checker works in two passes over tables and scopes and reports what it finds; the typing rules
speak of the text of a program alone. Each kind of finding is matched with the rule it decides, and
together they show that a program is accepted exactly if it is well typed.
-/

namespace MiniJava
open Relation

/-- No written type is void. -/
lemma TypeName.ty_ne_void (t : TypeName) : t.ty ≠ .void := by
  cases t <;> simp [ty]

namespace ClassDecl

lemma checkSuper_eq_nil_iff (h : Hierarchy) (d : ClassDecl) (owner : ClassInfo) :
    d.checkSuper h owner = [] ↔
      ∀ s, d.superName = some s → (h.get? s).isSome = true ∧ h.onCycle owner = false := by
  unfold checkSuper
  cases d.superName with
  | none => simp
  | some s => cases hs : h.get? s <;> cases hc : h.onCycle owner <;> simp [hs]

lemma overrideMismatches_eq_nil_iff (d : ClassDecl) (owner : ClassInfo) (above : List ClassInfo) :
    d.overrideMismatches owner above = [] ↔ ∀ m i o, owner.methods.get? m = some i →
      above.findSome? (·.methods.get? m) = some o → i.sig = o.sig := by
  rw [overrideMismatches, List.flatMap_eq_nil_iff]
  constructor
  · intro hall m i o hi ho
    have hentry := hall (m, i) ((Bindings.get?_eq_some_iff _ _ _).1 hi)
    simp only [ho] at hentry
    by_contra hne
    rw [← MethodInfo.agreesWith_iff] at hne
    simp [hne] at hentry
  · rintro hall ⟨m, i⟩ hmem
    have hi := (Bindings.get?_eq_some_iff _ _ _).2 hmem
    cases ho : above.findSome? (·.methods.get? m) with
    | none => rfl
    | some o =>
      have hagree := (MethodInfo.agreesWith_iff i o).2 (hall m i o hi ho)
      simp [hagree]

end ClassDecl

namespace Program

variable {p : Program}

/-! ### What acceptance says of each declaration -/

/-- The context of the main statement: the argument is the only variable. -/
def mainContext (p : Program) : Context :=
  Context.enter ⟨p.main.info, .empty⟩ ⟨.empty, [⟨[(p.main.arg, .stringArray)], by simp⟩]⟩

/-- The context of a method body in a program without repeated names. -/
def methodContext (p : Program) (c : ClassDecl) (m : MethodDecl) : Context :=
  (Context.inClass p.hierarchy ⟨c.info.1, .empty⟩).enter m.info.1.scope

lemma context?_mainClass (p : Program) : p.main.context? p.hierarchy = some p.mainContext := by
  rw [MainClass.context?, get?_hierarchy_main]
  rfl

lemma live?_class (hp : p.classNames.Nodup) {c : ClassDecl} (hc : c ∈ p.classes) :
    c.live? p.hierarchy = some c.info.1 := by
  have hget : p.hierarchy.get? c.name = some c.info.1 := by
    rw [get?_hierarchy, Bindings.get?_eq_some_iff, entries_hierarchy hp]
    exact List.mem_cons_of_mem _ (List.mem_map_of_mem hc)
  rw [ClassDecl.live?, hget]
  simp [ClassDecl.info, Origin.isDecl, Option.filter]

lemma live?_method {c : ClassDecl} (hc : (c.methods.map MethodDecl.name).Nodup) {m : MethodDecl}
    (hm : m ∈ c.methods) : m.live? c.info.1 = some m.info.1 := by
  have hget : c.info.1.methods.get? m.name = some m.info.1 := by
    rw [Bindings.get?_eq_some_iff, ClassDecl.entries_methods hc]
    exact List.mem_map_of_mem hm
  rw [MethodDecl.live?, hget]
  simp [MethodDecl.info, MethodDecl.origin, Origin.isDecl, Option.filter]

/-- All that is found in a program: by the collection, then in the main statement and class by
class. -/
def findings (p : Program) : List Diagnostic :=
  (Hierarchy.collect .empty p).2 ++
    (p.main.body.check p.hierarchy p.mainContext ++ p.classes.flatMap (·.freshFindings p.hierarchy))

/-- The findings decide: without any the program is accepted, else it is refused with all of them.
There is no other answer. -/
theorem check_eq_findings (p : Program) :
    p.check =
      if p.findings.isEmpty then .ok ⟨p, p.hierarchy⟩ else .error (.findings p.findings) := by
  have hrun := checkAgainst_finds (context?_mainClass p)
  rw [hierarchy] at hrun
  simp only [check, run, Hierarchy.build_eq_ok, hrun.outcome, hrun.diagnostics]
  rfl

/-- Neither pass finds anything: no name twice, and nothing in any declaration. -/
structure Clean (p : Program) : Prop where
  distinct : p.DistinctNames
  main : p.main.body.check p.hierarchy p.mainContext = []
  supers : ∀ c ∈ p.classes, c.checkSuper p.hierarchy c.info.1 = []
  fields : ∀ c ∈ p.classes, ∀ f ∈ c.fields, f.undeclared p.hierarchy = []
  types : ∀ c ∈ p.classes, ∀ m ∈ c.methods, m.checkTypes p.hierarchy m.info.1 = []
  bodies : ∀ c ∈ p.classes, ∀ m ∈ c.methods,
    m.checkBody p.hierarchy (p.methodContext c m) m.info.1 = []
  overrides : ∀ c ∈ p.classes,
    c.overrideMismatches c.info.1 (p.hierarchy.ancestors c.info.1) = []

/-- Without repeated names every class and every method is looked at. -/
lemma freshFindings_of_distinct (hp : p.DistinctNames) {c : ClassDecl} (hc : c ∈ p.classes) :
    c.freshFindings p.hierarchy =
      c.checkSuper p.hierarchy c.info.1 ++ c.fields.flatMap (·.undeclared p.hierarchy) ++
        c.methods.flatMap (fun m => m.checkTypes p.hierarchy m.info.1 ++
          m.checkBody p.hierarchy (p.methodContext c m) m.info.1) ++
        c.overrideMismatches c.info.1 (p.hierarchy.ancestors c.info.1) := by
  have hmethods : c.methods.flatMap
      (·.findings p.hierarchy (Context.inClass p.hierarchy ⟨c.info.1, .empty⟩)) =
        c.methods.flatMap fun m => m.checkTypes p.hierarchy m.info.1 ++
          m.checkBody p.hierarchy (p.methodContext c m) m.info.1 := by
    apply List.flatMap_congr
    intro m hm
    have howner : (Context.inClass p.hierarchy ⟨c.info.1, .empty⟩).owner = c.info.1 := rfl
    rw [MethodDecl.findings, howner, live?_method (hp.members c hc).methods hm]
    rfl
  rw [ClassDecl.freshFindings, live?_class hp.classes hc, ← hmethods]
  rfl

lemma freshFindings_eq_nil_iff (hp : p.DistinctNames) {c : ClassDecl} (hc : c ∈ p.classes) :
    c.freshFindings p.hierarchy = [] ↔
      c.checkSuper p.hierarchy c.info.1 = [] ∧ (∀ f ∈ c.fields, f.undeclared p.hierarchy = []) ∧
      (∀ m ∈ c.methods, m.checkTypes p.hierarchy m.info.1 = [] ∧
        m.checkBody p.hierarchy (p.methodContext c m) m.info.1 = []) ∧
      c.overrideMismatches c.info.1 (p.hierarchy.ancestors c.info.1) = [] := by
  simp only [freshFindings_of_distinct hp hc, List.append_eq_nil_iff, List.flatMap_eq_nil_iff,
    and_assoc]

lemma findings_eq_nil_iff (p : Program) : p.findings = [] ↔ p.Clean := by
  rw [findings, List.append_eq_nil_iff, List.append_eq_nil_iff, List.flatMap_eq_nil_iff,
    collect_eq_nil_iff]
  constructor
  · rintro ⟨hp, hmain, hclasses⟩
    have hall := fun c hc => (freshFindings_eq_nil_iff hp hc).1 (hclasses c hc)
    exact ⟨hp, hmain, fun c hc => (hall c hc).1, fun c hc => (hall c hc).2.1,
      fun c hc m hm => ((hall c hc).2.2.1 m hm).1,
      fun c hc m hm => ((hall c hc).2.2.1 m hm).2, fun c hc => (hall c hc).2.2.2⟩
  · intro hclean
    have hp := hclean.distinct
    refine ⟨hp, hclean.main, fun c hc => ?_⟩
    exact (freshFindings_eq_nil_iff hp hc).2 ⟨hclean.supers c hc, hclean.fields c hc,
      fun m hm => ⟨hclean.types c hc m hm, hclean.bodies c hc m hm⟩, hclean.overrides c hc⟩

/-- A program is accepted exactly if it is clean, and the answer carries its hierarchy. -/
theorem check_eq_ok_iff (p : Program) (c : Checked) :
    p.check = .ok c ↔ p.Clean ∧ c = ⟨p, p.hierarchy⟩ := by
  rw [← findings_eq_nil_iff, check_eq_findings]
  by_cases hnone : p.findings = []
  · simp [hnone, eq_comm]
  · simp [hnone]

/-! ### Each finding decides a rule -/

/-- No finding about superclasses: they are declared, and none is above itself. -/
theorem checkSuper_eq_nil_iff_regular (hp : p.DistinctNames) :
    (∀ c ∈ p.classes, c.checkSuper p.hierarchy c.info.1 = []) ↔ p.Regular := by
  have hk := p.hierarchy_keyed
  constructor
  · intro hall
    have hsuper : ∀ a b, p.Extends a b → b ∈ p.classNames ∧
        ∀ c, p.hierarchy.get? a = some c → ¬ TransGen p.hierarchy.Extends c c := by
      rintro a b ⟨d, hd, rfl, hb⟩
      have hnone := (ClassDecl.checkSuper_eq_nil_iff _ _ _).1 (hall d hd)
      obtain ⟨hdecl, hcycle⟩ := hnone b hb
      refine ⟨(p.isSome_get?_hierarchy b).1 hdecl, ?_⟩
      intro c hc hloop
      rw [get?_hierarchy_class hp hd] at hc
      cases hc
      have hbound : p.hierarchy.Bound d.info.1 := get?_hierarchy_class hp hd
      rw [(Hierarchy.onCycle_iff hk hbound).2 hloop] at hcycle
      cases hcycle
    have hclosed := fun a b hab => (hsuper a b hab).1
    refine ⟨hp, hclosed, ?_⟩
    intro a hloop
    obtain ⟨b, hab, _⟩ := TransGen.head'_iff.1 hloop
    obtain ⟨c, hc⟩ := exists_get?_hierarchy (mem_classNames_of_extends hab)
    obtain ⟨d, hd, hcd⟩ := (transGen_hierarchy_iff hp hclosed hc a).1 hloop
    rw [hc] at hd
    cases hd
    exact (hsuper a b hab).2 c hc hcd
  · intro hr d hd
    have hbound : p.hierarchy.Bound d.info.1 := get?_hierarchy_class hp hd
    rw [ClassDecl.checkSuper_eq_nil_iff]
    intro s hs
    refine ⟨(p.isSome_get?_hierarchy s).2 (hr.closed d.name s ⟨d, hd, rfl, hs⟩), ?_⟩
    rw [← Bool.not_eq_true, Hierarchy.onCycle_iff hk hbound]
    exact hr.acyclic_hierarchy _ hbound

lemma undeclared_eq_nil_iff (t : Ty) (line : Line) :
    p.hierarchy.undeclared t line = [] ↔ p.Declared t := by
  cases t with
  | object c =>
    have hdecl := p.isSome_get?_hierarchy c
    simp only [Hierarchy.undeclared, Declared, ← hdecl]
    cases p.hierarchy.get? c <;> simp
  | _ => simp [Hierarchy.undeclared, Declared]

lemma checkTypes_eq_nil_iff (m : MethodDecl) :
    m.checkTypes p.hierarchy m.info.1 = [] ↔
      p.Declared m.returnType.ty ∧ ∀ v ∈ m.vars, p.Declared v.ty := by
  have hres : m.info.1.returnType = m.returnType.ty := rfl
  rw [MethodDecl.checkTypes, List.append_eq_nil_iff, List.flatMap_eq_nil_iff, hres,
    undeclared_eq_nil_iff]
  refine and_congr_right' (forall₂_congr fun v _ => ?_)
  exact undeclared_eq_nil_iff v.ty v.line

/-- The main class overrides nothing, so the classes of the text decide. -/
lemma overrideMismatches_eq_nil_iff_agree (hp : p.DistinctNames) :
    (∀ c ∈ p.classes, c.overrideMismatches c.info.1 (p.hierarchy.ancestors c.info.1) = []) ↔
      p.hierarchy.OverridesAgree := by
  constructor
  · intro hall c hc m i o hi ho
    rcases (get?_hierarchy_iff hp _ c).1 hc with ⟨_, rfl⟩ | ⟨d, hd, _, rfl⟩
    · rw [Hierarchy.ancestors_eq_nil rfl] at ho
      cases ho
    · exact (ClassDecl.overrideMismatches_eq_nil_iff _ _ _).1 (hall d hd) m i o hi ho
  · intro hall c hc
    rw [ClassDecl.overrideMismatches_eq_nil_iff]
    exact hall c.info.1 (get?_hierarchy_class hp hc)

lemma known_of_declared (t : TypeName) (ht : p.Declared t.ty) : p.Known t.ty :=
  ⟨by cases t <;> simp [TypeName.ty], ht⟩

lemma signaturesKnown_of_declared
    (hres : ∀ c ∈ p.classes, ∀ m ∈ c.methods, p.Declared m.returnType.ty)
    (hvars : ∀ c ∈ p.classes, ∀ m ∈ c.methods, ∀ v ∈ m.vars, p.Declared v.ty) :
    p.SignaturesKnown := by
  intro m c s hm
  cases hm with
  | main =>
    refine ⟨⟨by simp, trivial⟩, ?_⟩
    intro t ht
    rw [List.mem_singleton.1 ht]
    exact ⟨by simp, trivial⟩
  | @declared d n hd hn =>
    refine ⟨known_of_declared _ (hres d hd n hn), ?_⟩
    intro t ht
    obtain ⟨v, hv, rfl⟩ := List.mem_map.1 ht
    exact known_of_declared _ (hvars d hd n hn v (List.mem_append_left _ hv))

lemma WellTyped.signaturesKnown (hp : p.WellTyped) : p.SignaturesKnown :=
  signaturesKnown_of_declared hp.result_declared hp.var_declared

/-! ### Contexts of bodies -/

lemma resolve_inClass (h : Hierarchy) (c : ClassInfo) (x : String) :
    (Context.inClass h ⟨c, .empty⟩).env.resolve x =
      (c :: h.ancestors c).findSome? (·.fields.get? x) := by
  have hscopes : (Context.inClass h ⟨c, .empty⟩).env.scopes =
      (c :: h.ancestors c).map fun o => ⟨o.fields, []⟩ := by
    simp only [Context.inClass, Context.enterAll, Env.scopes_enterAll, ClassInfo.fieldsBelow]
    simp [Env.empty]
  rw [Env.resolve, Env.resolveBy, hscopes, List.findSome?_map]
  congr 1
  funext o
  simp [Scope.get?_mk]

lemma scope_get?_iff {m : MethodDecl} (hm : m.DistinctNames) (x : String) (t : Ty) :
    m.info.1.scope.get? x = some t ↔ ∃ v ∈ m.vars, v.name = x ∧ v.ty = t := by
  have hnodup := MethodDecl.distinctNames_iff.1 hm
  have hparams : m.info.1.params.get? x = some t ↔ ∃ v ∈ m.formals, v.name = x ∧ v.ty = t := by
    rw [Bindings.get?_eq_some_iff, MethodDecl.entries_params (List.nodup_append.1 hnodup).1]
    simp
  have hlocals : ∀ t, m.info.1.locals.get? x = some t ↔ ∃ v ∈ m.locals, v.name = x ∧ v.ty = t := by
    intro t
    rw [Bindings.get?_eq_some_iff, MethodDecl.entries_locals hm]
    simp
  rw [MethodInfo.get?_scope, Option.or_eq_some_iff, hlocals, hparams]
  constructor
  · rintro (⟨v, hv, hx⟩ | ⟨_, v, hv, hx⟩)
    · exact ⟨v, List.mem_append_right _ hv, hx⟩
    · exact ⟨v, List.mem_append_left _ hv, hx⟩
  · rintro ⟨v, hv, hx, ht⟩
    rcases List.mem_append.1 hv with hv | hv
    · refine .inr ⟨?_, v, hv, hx, ht⟩
      rw [Option.eq_none_iff_forall_ne_some]
      intro s hs
      obtain ⟨w, hw, hwx, _⟩ := (hlocals s).1 hs
      exact (List.nodup_append.1 hnodup).2.2 v.name (List.mem_map_of_mem hv) w.name
        (List.mem_map_of_mem hw) (hx.trans hwx.symm)
    · exact .inl ⟨v, hv, hx, ht⟩

lemma resolve_mainContext (p : Program) (x : String) :
    p.mainContext.env.resolve x = if x = p.main.arg then some .stringArray else none := by
  rw [mainContext, Context.enter, Env.resolve_enter, Scope.get?_mk]
  by_cases hx : x = p.main.arg
  · simp [hx, Bindings.get?]
  · simp [hx, Bindings.get?, Bindings.empty]

lemma sees_main (p : Program) : p.Sees p.mainContext p.main.name p.MainVar where
  owner := rfl
  declared := List.mem_cons_self
  resolve x t := by
    rw [resolve_mainContext, MainVar]
    by_cases hx : x = p.main.arg
    · simp [hx, eq_comm]
    · simp [hx]
  known x t hx := by
    rw [hx.2]
    exact ⟨by simp, trivial⟩

/-- Inside a method its own variables come first, then the nearest field. -/
lemma resolve_methodContext_iff (hr : p.Regular) {c : ClassDecl} (hc : c ∈ p.classes)
    {m : MethodDecl} (hm : m ∈ c.methods) (x : String) (t : Ty) :
    (p.methodContext c m).env.resolve x = some t ↔ p.MethodVar c m x t := by
  have hvar := scope_get?_iff ((hr.distinct.members c hc).methodVars m hm) x
  have hfield := hr.nearest_iff (fun a d hd s => hasField_iff hr.distinct hd x s)
    (get?_hierarchy_class hr.distinct hc) t
  rw [methodContext, Context.enter, Env.resolve_enter, resolve_inClass, MethodVar, hfield,
    Option.or_eq_some_iff, hvar]
  refine or_congr_right (and_congr_left' ?_)
  rw [Option.eq_none_iff_forall_ne_some]
  constructor
  · intro hnone v hv hx
    exact hnone v.ty ((hvar v.ty).2 ⟨v, hv, hx, rfl⟩)
  · intro hnone s hs
    obtain ⟨v, hv, hx, _⟩ := (hvar s).1 hs
    exact hnone v hv hx

lemma sees_method (hr : p.Regular)
    (hfields : ∀ c ∈ p.classes, ∀ f ∈ c.fields, p.Declared f.ty) {c : ClassDecl}
    (hc : c ∈ p.classes) {m : MethodDecl} (hm : m ∈ c.methods)
    (hvars : ∀ v ∈ m.vars, p.Declared v.ty) :
    p.Sees (p.methodContext c m) c.name (p.MethodVar c m) where
  owner := rfl
  declared := List.mem_cons_of_mem _ (List.mem_map_of_mem hc)
  resolve := resolve_methodContext_iff hr hc hm
  known x t hx := by
    rcases hx with ⟨v, hv, _, rfl⟩ | ⟨_, hnear⟩
    · exact known_of_declared _ (hvars v hv)
    · obtain ⟨d, _, e, he, _, f, hf, _, rfl⟩ := hnear.exists_above
      exact known_of_declared _ (hfields e he f hf)

lemma checkBody_eq_nil_iff (hr : p.Regular) (hsig : p.SignaturesKnown) {c : ClassDecl}
    {m : MethodDecl} (hctx : p.Sees (p.methodContext c m) c.name (p.MethodVar c m))
    (hres : p.Known m.returnType.ty) :
    m.checkBody p.hierarchy (p.methodContext c m) m.info.1 = [] ↔ p.MethodTyped c m := by
  have hty : m.info.1.returnType = m.returnType.ty := rfl
  have hresult := (infer_eq_iff hr hsig hctx m.result).checkAs_iff hr hsig hctx hres
  rw [MethodDecl.checkBody, List.append_eq_nil_iff, Stmt.checkAll_eq_flatMap,
    List.flatMap_eq_nil_iff, Expr.checkAs, expecting_eq_nil_iff, hty, hresult]
  constructor
  · rintro ⟨hbody, hret⟩
    exact ⟨fun s hs => (check_stmt_eq_nil_iff hr hsig hctx s).1 (hbody s hs), hret⟩
  · rintro ⟨hbody, hret⟩
    exact ⟨fun s hs => (check_stmt_eq_nil_iff hr hsig hctx s).2 (hbody s hs), hret⟩

/-! ### The two sides meet -/

namespace Clean

lemma regular (hp : p.Clean) : p.Regular :=
  (checkSuper_eq_nil_iff_regular hp.distinct).1 hp.supers

lemma overridesAgree (hp : p.Clean) : p.hierarchy.OverridesAgree :=
  (overrideMismatches_eq_nil_iff_agree hp.distinct).1 hp.overrides

lemma field_declared (hp : p.Clean) : ∀ c ∈ p.classes, ∀ f ∈ c.fields, p.Declared f.ty :=
  fun c hc f hf => (undeclared_eq_nil_iff f.ty f.line).1 (hp.fields c hc f hf)

lemma result_declared (hp : p.Clean) :
    ∀ c ∈ p.classes, ∀ m ∈ c.methods, p.Declared m.returnType.ty :=
  fun c hc m hm => ((checkTypes_eq_nil_iff m).1 (hp.types c hc m hm)).1

lemma var_declared (hp : p.Clean) :
    ∀ c ∈ p.classes, ∀ m ∈ c.methods, ∀ v ∈ m.vars, p.Declared v.ty :=
  fun c hc m hm => ((checkTypes_eq_nil_iff m).1 (hp.types c hc m hm)).2

lemma signaturesKnown (hp : p.Clean) : p.SignaturesKnown :=
  signaturesKnown_of_declared hp.result_declared hp.var_declared

lemma sees_method (hp : p.Clean) {c : ClassDecl} (hc : c ∈ p.classes) {m : MethodDecl}
    (hm : m ∈ c.methods) : p.Sees (p.methodContext c m) c.name (p.MethodVar c m) :=
  Program.sees_method hp.regular hp.field_declared hc hm (hp.var_declared c hc m hm)

end Clean

theorem clean_iff_wellTyped (p : Program) : p.Clean ↔ p.WellTyped := by
  constructor
  · intro hp
    have hr := hp.regular
    have hsig := hp.signaturesKnown
    refine ⟨hp.distinct, hr.closed, hr.acyclic, hp.field_declared, hp.var_declared,
      hp.result_declared, (overridesAgree_iff hr).1 hp.overridesAgree,
      (check_stmt_eq_nil_iff hr hsig (sees_main p) _).1 hp.main, ?_⟩
    intro c hc m hm
    have hres := known_of_declared _ (hp.result_declared c hc m hm)
    exact (checkBody_eq_nil_iff hr hsig (hp.sees_method hc hm) hres).1 (hp.bodies c hc m hm)
  · intro hw
    have hdist := hw.distinct
    have hr : p.Regular := ⟨hdist, hw.superclass_declared, hw.acyclic⟩
    have hsig := signaturesKnown_of_declared hw.result_declared hw.var_declared
    refine ⟨hdist, (check_stmt_eq_nil_iff hr hsig (sees_main p) _).2 hw.main_typed,
      (checkSuper_eq_nil_iff_regular hdist).2 hr, ?_, ?_, ?_,
      (overrideMismatches_eq_nil_iff_agree hdist).2 ((overridesAgree_iff hr).2 hw.override_same)⟩
    · intro c hc f hf
      exact (undeclared_eq_nil_iff f.ty f.line).2 (hw.field_declared c hc f hf)
    · intro c hc m hm
      exact (checkTypes_eq_nil_iff m).2
        ⟨hw.result_declared c hc m hm, hw.var_declared c hc m hm⟩
    · intro c hc m hm
      have hctx := sees_method hr hw.field_declared hc hm (hw.var_declared c hc m hm)
      have hres := known_of_declared _ (hw.result_declared c hc m hm)
      exact (checkBody_eq_nil_iff hr hsig hctx hres).2 (hw.method_typed c hc m hm)

/-- The checker accepts exactly the well-typed programs. -/
theorem accepted_iff_wellTyped (p : Program) : (∃ c, p.check = .ok c) ↔ p.WellTyped := by
  rw [← clean_iff_wellTyped]
  constructor
  · rintro ⟨c, hc⟩
    exact ((check_eq_ok_iff p c).1 hc).1
  · intro hp
    exact ⟨⟨p, p.hierarchy⟩, (check_eq_ok_iff p _).2 ⟨hp, rfl⟩⟩

/-- In an accepted program a subclass answers every call that its superclass answers, by a method
of the same signature. -/
theorem dispatch_coherent {p : Program} {checked : Checked} (hok : p.check = .ok checked)
    {a b m : String} {i : MethodInfo} (hab : checked.hierarchy.derivesFrom a b = true)
    (hi : checked.hierarchy.findMethod? b m = some i) :
    ∃ j, checked.hierarchy.findMethod? a m = some j ∧ j.agreesWith i = true := by
  obtain ⟨hp, rfl⟩ := (check_eq_ok_iff p checked).1 hok
  have hk := p.hierarchy_keyed
  obtain ⟨j, hj, hji⟩ := Hierarchy.findMethod?_of_derivesFrom hk hp.regular.acyclic_hierarchy
    hp.overridesAgree hab hi
  exact ⟨j, hj, (MethodInfo.agreesWith_iff j i).2 hji⟩

/-- Three classes `C extends B`, `B extends A`; `m` is declared in `A`, declared again in `C`, and
missing in between. -/
def overridingChain : Program where
  main := ⟨"Main", "args", .print (.call (.newObject "A" none) "m" [.intLiteral 1 none] none) none,
    none⟩
  classes :=
    [⟨1, "C", some "B", [], [⟨2, ⟨.int, none⟩, "m", [⟨⟨.int, none⟩, "y", none⟩], [], [],
        .identifier "y" none, none⟩], none⟩,
      ⟨3, "B", some "A", [], [], none⟩,
      ⟨4, "A", none, [], [⟨5, ⟨.int, none⟩, "m", [⟨⟨.int, none⟩, "x", none⟩], [], [],
        .intLiteral 0 none, none⟩], none⟩]
  line := none

/-- The method of `C` is found to agree with the one of `A`, which stands two classes above. -/
theorem dispatch_coherent_overridingChain :
    overridingChain.check = .ok ⟨overridingChain, overridingChain.hierarchy⟩ ∧
      overridingChain.hierarchy.derivesFrom "C" "A" = true ∧
      ∃ i j, overridingChain.hierarchy.findMethod? "A" "m" = some i ∧
        overridingChain.hierarchy.findMethod? "C" "m" = some j ∧ j.agreesWith i = true := by
  have hok : overridingChain.check = .ok ⟨overridingChain, overridingChain.hierarchy⟩ := by rfl
  have hsub : overridingChain.hierarchy.derivesFrom "C" "A" = true := by decide
  have hsome : (overridingChain.hierarchy.findMethod? "A" "m").isSome = true := by decide
  obtain ⟨i, hi⟩ := Option.isSome_iff_exists.1 hsome
  obtain ⟨j, hj, hji⟩ := dispatch_coherent hok hsub hi
  exact ⟨hok, hsub, i, j, hi, hj, hji⟩

end Program

end MiniJava
