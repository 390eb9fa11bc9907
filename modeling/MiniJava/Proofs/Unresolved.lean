import MiniJava.Proofs.FirstWins
import MiniJava.Proofs.Live
import MiniJava.Proofs.Mentions

/-!
# Names without a declaration

A text mentions variables and classes. Each mention of a name that stands for nothing is told, once
and in its place, whatever else is wrong around it: no check passes over an operand, a receiver, an
argument or a statement because of what was found before.
-/

namespace MiniJava

open Relation

/-- The mention that a diagnostic says is of nothing. -/
def Diagnostic.mention? (d : Diagnostic) : Option Mention :=
  match d.issue with
  | .undefinedIdentifier name => some (.ofVar name d.line)
  | .undefinedClass name => some (.ofClass name d.line)
  | _ => none

/-! ### What is told of code -/

/-- A variable stands for something if it is seen, a class if it is one of the known ones. -/
def Mention.Resolved (Seen : String → Prop) (known : List String) : Mention → Prop
  | .ofVar name _ => Seen name
  | .ofClass name _ => name ∈ known

instance (Seen : String → Prop) [DecidablePred Seen] (known : List String) :
    DecidablePred (Mention.Resolved Seen known)
  | .ofVar name _ => inferInstanceAs (Decidable (Seen name))
  | .ofClass name _ => inferInstanceAs (Decidable (name ∈ known))

/-- The mentions that stand for nothing. -/
def Mention.unresolved (Seen : String → Prop) [DecidablePred Seen] (known : List String)
    (ms : List Mention) : List Mention :=
  ms.filter fun m => ¬ m.Resolved Seen known

/-- The context has a type for just the variables that are seen, the hierarchy a class for just the
known names. -/
structure Context.Covers (ctx : Context) (h : Hierarchy) (Seen : String → Prop)
    (known : List String) : Prop where
  seen : ∀ x, (ctx.env.resolve x).isSome = true ↔ Seen x
  known : ∀ c, (h.get? c).isSome = true ↔ c ∈ known

section Code

variable {h : Hierarchy} {ctx : Context} {Seen : String → Prop} [DecidablePred Seen]
  {known : List String}

lemma mention?_expecting (t : Ty) (line : Line) (r : Ty × List Diagnostic) :
    (expecting h t line r).filterMap Diagnostic.mention? = r.2.filterMap Diagnostic.mention? := by
  rw [expecting, List.filterMap_append]
  cases h.fits r.1 t <;> simp [Diagnostic.mention?]

lemma mention?_judgeArgs (method : String) (pos : Nat) (args : List (Ty × Line))
    (params : List Ty) :
    (judgeArgs h method pos args params).filterMap Diagnostic.mention? = [] := by
  induction args generalizing pos params with
  | nil => rfl
  | cons a args ih =>
    cases params with
    | nil => rfl
    | cons t params =>
      rw [judgeArgs, List.filterMap_append, ih, List.append_nil]
      cases h.fits a.1 t <;> simp [Diagnostic.mention?]

lemma mention?_judgeCall (receiver : Ty) (receiverLine line : Line) (method : String)
    (args : List (Ty × Line)) :
    (judgeCall h receiver receiverLine method args line).2.filterMap Diagnostic.mention? = [] := by
  unfold judgeCall
  cases h.settled receiver with
  | object c =>
    cases hm : h.findMethod? c method with
    | none => simp [hm, Diagnostic.mention?]
    | some m =>
      by_cases hsize : m.params.size = args.length
      · simp [hm, hsize, mention?_judgeArgs]
      · simp [hm, hsize, Diagnostic.mention?]
  | _ => simp [Diagnostic.mention?]

lemma Mention.unresolved_append (ms ns : List Mention) :
    unresolved Seen known (ms ++ ns) = unresolved Seen known ms ++ unresolved Seen known ns :=
  List.filter_append _ _

lemma Mention.unresolved_flatMap {δ : Type} (mentions : δ → List Mention) (ds : List δ) :
    unresolved Seen known (ds.flatMap mentions) =
      ds.flatMap fun d => unresolved Seen known (mentions d) :=
  List.filter_flatMap

lemma Context.Covers.mention?_typeOf (hctx : ctx.Covers h Seen known) (name : String)
    (line : Line) :
    (match ctx.typeOf h name line with
      | .ok _ => []
      | .error d => [d]).filterMap Diagnostic.mention? =
      Mention.unresolved Seen known [.ofVar name line] := by
  have hseen := hctx.seen name
  cases hx : ctx.env.resolve name <;>
    simp_all [Context.typeOf, Diagnostic.mention?, Mention.unresolved, Mention.Resolved]

/-- Whatever its type comes to, in an expression every unresolved mention is told, and no other. -/
theorem Context.Covers.mention?_infer (hctx : ctx.Covers h Seen known) (e : Expr) :
    (e.infer h ctx).2.filterMap Diagnostic.mention? = Mention.unresolved Seen known e.mentions := by
  induction e using Expr.induction with
  | unary op e line ih => cases op; rw [Expr.infer, mention?_expecting, ih, Expr.mentions]
  | binary op l r line ihl ihr =>
    rw [Expr.infer, List.filterMap_append, mention?_expecting, mention?_expecting, ihl, ihr,
      Expr.mentions, Mention.unresolved_append]
  | arrayLookup a i line iha ihi =>
    rw [Expr.infer, List.filterMap_append, mention?_expecting, mention?_expecting, iha, ihi,
      Expr.mentions, Mention.unresolved_append]
  | arrayLength a line ih => rw [Expr.infer, mention?_expecting, ih, Expr.mentions]
  | call e m args line ihe ihargs =>
    -- receiver and arguments are typed whatever becomes of the call
    have hargs : (args.flatMap fun a => (a.infer h ctx).2).filterMap Diagnostic.mention? =
        args.flatMap fun a => Mention.unresolved Seen known a.mentions := by
      rw [List.filterMap_flatMap]
      exact List.flatMap_congr ihargs
    rw [infer_call, List.filterMap_append, List.filterMap_append, mention?_judgeCall, ihe, hargs,
      List.append_nil, Expr.mentions, Expr.mentionsAll_eq_flatMap, Mention.unresolved_append,
      Mention.unresolved_flatMap]
  | newArray n line ih => rw [Expr.infer, mention?_expecting, ih, Expr.mentions]
  | newObject c line =>
    have hknown := hctx.known c
    cases hc : h.get? c <;>
      simp_all [Expr.infer, Expr.mentions, Mention.unresolved, Mention.Resolved,
        Diagnostic.mention?]
  | this line => rfl
  | identifier x line =>
    rw [Expr.mentions, ← hctx.mention?_typeOf, Expr.infer]
    cases ctx.typeOf h x line <;> rfl
  | intLiteral n line => rfl
  | boolLiteral b line => rfl

lemma Context.Covers.mention?_checkAs (hctx : ctx.Covers h Seen known) (t : Ty) (e : Expr) :
    (e.checkAs h ctx t).filterMap Diagnostic.mention? =
      Mention.unresolved Seen known e.mentions := by
  rw [Expr.checkAs, mention?_expecting, hctx.mention?_infer]

lemma Context.Covers.mention?_checkAsCondition (hctx : ctx.Covers h Seen known) (e : Expr) :
    (e.checkAsCondition h ctx).filterMap Diagnostic.mention? =
      Mention.unresolved Seen known e.mentions := by
  rw [Expr.checkAsCondition, List.filterMap_append, hctx.mention?_infer]
  cases h.fits (e.infer h ctx).1 .boolean <;> simp [Diagnostic.mention?]

lemma Context.Covers.mention?_checkAssign (hctx : ctx.Covers h Seen known) (x : String) (e : Expr)
    (line : Line) : (checkAssign h ctx x e line).filterMap Diagnostic.mention? =
      Mention.unresolved Seen known (.ofVar x line :: e.mentions) := by
  have hx := hctx.mention?_typeOf x line
  rw [← List.singleton_append, Mention.unresolved_append, ← hx, ← hctx.mention?_infer, checkAssign]
  cases ctx.typeOf h x line with
  | error d =>
    rw [← List.filterMap_append]
    rfl
  | ok t => cases h.fits (e.infer h ctx).1 t <;> simp [Diagnostic.mention?]

lemma Context.Covers.mention?_checkAssignAt (hctx : ctx.Covers h Seen known) (x : String)
    (i e : Expr) (line : Line) : (checkAssignAt h ctx x i e line).filterMap Diagnostic.mention? =
      Mention.unresolved Seen known (.ofVar x line :: (i.mentions ++ e.mentions)) := by
  have hx := hctx.mention?_typeOf x line
  rw [← List.singleton_append, Mention.unresolved_append, Mention.unresolved_append, ← hx,
    ← hctx.mention?_checkAs .int i, ← hctx.mention?_checkAs .int e, checkAssignAt]
  cases ctx.typeOf h x line with
  | error d => simp only [List.filterMap_append, List.append_assoc]
  | ok t => cases h.fits t .intArray <;> simp [Diagnostic.mention?]

theorem Context.Covers.mention?_check (hctx : ctx.Covers h Seen known) (s : Stmt) :
    (s.check h ctx).filterMap Diagnostic.mention? = Mention.unresolved Seen known s.mentions := by
  induction s using Stmt.induction with
  | block body line ih =>
    rw [Stmt.check, Stmt.checkAll_eq_flatMap, List.filterMap_flatMap, Stmt.mentions,
      Stmt.mentionsAll_eq_flatMap, Mention.unresolved_flatMap]
    exact List.flatMap_congr ih
  | branch cond yes no line ihy ihn =>
    rw [Stmt.check, List.filterMap_append, List.filterMap_append, hctx.mention?_checkAsCondition,
      ihy, ihn, Stmt.mentions, Mention.unresolved_append, Mention.unresolved_append]
  | loop cond body line ih =>
    rw [Stmt.check, List.filterMap_append, hctx.mention?_checkAsCondition, ih, Stmt.mentions,
      Mention.unresolved_append]
  | print e line => exact hctx.mention?_checkAs .int e
  | assign x e line => exact hctx.mention?_checkAssign x e line
  | assignAt x i e line => exact hctx.mention?_checkAssignAt x i e line

end Code

/-! ### What is told of declarations -/

section Declarations

variable {h : Hierarchy} {known : List String}

lemma mention?_undeclared (hknown : ∀ c, (h.get? c).isSome = true ↔ c ∈ known)
    (Seen : String → Prop) [DecidablePred Seen] (t : TypeName) (line : Line) :
    (h.undeclared t.ty line).filterMap Diagnostic.mention? =
      Mention.unresolved Seen known (t.mentions line) := by
  cases t with
  | ofClass c =>
    have hc := hknown c
    cases hget : h.get? c <;>
      simp_all [TypeName.ty, TypeName.mentions, Hierarchy.undeclared, Mention.unresolved,
        Mention.Resolved, Diagnostic.mention?]
  | _ => rfl

lemma mention?_undeclaredVars (hknown : ∀ c, (h.get? c).isSome = true ↔ c ∈ known)
    (Seen : String → Prop) [DecidablePred Seen] (ds : List VarDecl) :
    (ds.flatMap (·.undeclared h)).filterMap Diagnostic.mention? =
      Mention.unresolved Seen known (ds.flatMap VarDecl.mentions) := by
  rw [List.filterMap_flatMap, Mention.unresolved_flatMap]
  exact List.flatMap_congr fun d _ => mention?_undeclared hknown Seen d.type.type d.line

lemma mention?_checkSuper (hknown : ∀ c, (h.get? c).isSome = true ↔ c ∈ known)
    (Seen : String → Prop) [DecidablePred Seen] (c : ClassDecl) (owner : ClassInfo) :
    (c.checkSuper h owner).filterMap Diagnostic.mention? =
      Mention.unresolved Seen known (c.superName.toList.map fun s => .ofClass s c.line) := by
  rw [ClassDecl.checkSuper]
  cases c.superName with
  | none => rfl
  | some s =>
    have hs := hknown s
    cases hget : h.get? s with
    | none =>
      simp_all [Mention.unresolved, Mention.Resolved, Diagnostic.mention?]
    | some d =>
      cases h.onCycle owner <;>
        simp_all [Mention.unresolved, Mention.Resolved, Diagnostic.mention?]

lemma mention?_overrideMismatches (c : ClassDecl) (owner : ClassInfo) (above : List ClassInfo) :
    (c.overrideMismatches owner above).filterMap Diagnostic.mention? = [] := by
  rw [ClassDecl.overrideMismatches, List.filterMap_flatMap, List.flatMap_eq_nil_iff]
  intro e _
  cases above.findSome? (·.methods.get? e.1) with
  | none => rfl
  | some m => cases e.2.agreesWith m <;> simp [Diagnostic.mention?]

end Declarations

/-- Nothing that the collection tells is about a name without a declaration. -/
lemma mention?_duplicate (taken : List String) (name : String) (line : Line) :
    (duplicate taken name line).filterMap Diagnostic.mention? = [] := by
  by_cases hname : name ∈ taken <;> simp [duplicate, hname, Diagnostic.mention?]

lemma mention?_repeats (p : Program) (known : List String) :
    (p.repeats known).filterMap Diagnostic.mention? = [] := by
  have hvars : ∀ taken ds, (VarDecl.repeats taken ds).filterMap Diagnostic.mention? = [] := by
    intro taken ds
    simp [VarDecl.repeats, List.filterMap_flatMap, mention?_duplicate]
  have hmethod : ∀ m : MethodDecl, m.repeats.filterMap Diagnostic.mention? = [] := by
    intro m
    rw [MethodDecl.repeats, List.filterMap_append, hvars, hvars, List.append_nil]
  have hclass : ∀ c : ClassDecl, c.repeats.filterMap Diagnostic.mention? = [] := by
    intro c
    rw [ClassDecl.repeats, List.filterMap_append, hvars, List.filterMap_flatMap]
    simp [mention?_duplicate, hmethod]
  rw [Program.repeats, List.filterMap_flatMap, List.flatMap_eq_nil_iff]
  intro x _
  rw [List.filterMap_append, mention?_duplicate, List.nil_append]
  cases x.2 with
  | main m => rfl
  | ordinary c => exact hclass c

/-! ### Whole programs -/

namespace Program

variable {p : Program} {c : ClassDecl} {m : MethodDecl}

/-- In a method its formals and locals are seen, and the fields of its class and of the classes
above, whatever their order and however often a name is declared. -/
def InScope (p : Program) (c : ClassDecl) (m : MethodDecl) (x : String) : Prop :=
  x ∈ m.vars.map VarDecl.name ∨
    ∃ d ∈ p.liveClasses, ReflTransGen p.LiveExtends c.name d.name ∧ x ∈ d.fields.map VarDecl.name

instance (p : Program) (c : ClassDecl) (m : MethodDecl) : DecidablePred (p.InScope c m) := fun x =>
  decidable_of_iff (x ∈ m.vars.map VarDecl.name ∨ ∃ d ∈ p.liveClasses,
      p.hierarchy.derivesFrom c.name d.name = true ∧ x ∈ d.fields.map VarDecl.name) <| by
    refine or_congr_right (exists_congr fun d => and_congr_right fun hd => and_congr_left' ?_)
    exact derivesFrom_hierarchy_iff_live c.name hd

/-- The mentions in a program that stand for nothing. In the main statement only the argument is
seen; a class or a method that is not known by its name is left out. -/
def unresolved (p : Program) : List Mention :=
  Mention.unresolved (· = p.main.arg) p.classNames p.main.body.mentions ++
    p.liveClasses.flatMap fun c =>
      Mention.unresolved (fun _ => False) p.classNames c.mentions ++
        c.liveMethods.flatMap fun m => Mention.unresolved (p.InScope c m) p.classNames m.mentions

lemma covers_main (p : Program) :
    p.mainContext.Covers p.hierarchy (· = p.main.arg) p.classNames where
  seen x := by
    rw [resolve_mainContext]
    by_cases hx : x = p.main.arg <;> simp [hx]
  known := p.isSome_get?_hierarchy

lemma isSome_get?_scope (m : MethodDecl) (x : String) :
    (m.info.1.scope.get? x).isSome = true ↔ x ∈ m.vars.map VarDecl.name := by
  have hlocals : x ∈ m.formals.map VarDecl.name ++ m.info.1.locals.names ↔
      x ∈ m.formals.map VarDecl.name ++ m.locals.map VarDecl.name := by
    rw [← mem_append_firsts_iff, Bindings.names, m.locals_entries, List.map_map]
    rfl
  rw [MethodInfo.get?_scope, Option.isSome_or, Bool.or_eq_true, Bindings.get?_isSome_iff,
    Bindings.get?_isSome_iff, m.mem_params_names, or_comm, ← List.mem_append, hlocals,
    MethodDecl.vars, List.map_append]

lemma mem_names_fields (c : ClassDecl) (x : String) :
    x ∈ c.info.1.fields.names ↔ x ∈ c.fields.map VarDecl.name := by
  have hfirsts : x ∈ [] ++ (firsts [] VarDecl.name c.fields).map VarDecl.name ↔
      x ∈ [] ++ c.fields.map VarDecl.name := mem_append_firsts_iff _ _ _
  simpa [Bindings.names, c.entries_fields_firsts] using hfirsts

lemma isSome_resolve_inClass (hc : c ∈ p.liveClasses) (x : String) :
    ((Context.inClass p.hierarchy ⟨c.info.1, .empty⟩).env.resolve x).isSome = true ↔
      ∃ d ∈ p.liveClasses, ReflTransGen p.LiveExtends c.name d.name ∧
        x ∈ d.fields.map VarDecl.name := by
  have hbound : p.hierarchy.Bound c.info.1 := get?_hierarchy_live hc
  have habove := mem_cons_ancestors_iff hbound
  rw [resolve_inClass, List.findSome?_isSome_iff]
  constructor
  · rintro ⟨o, ho, hx⟩
    obtain ⟨hob, hco⟩ := (habove o).1 ho
    rw [Bindings.get?_isSome_iff] at hx
    rcases (get?_hierarchy_iff_live p o.name o).1 hob with ⟨_, rfl⟩ | ⟨d, hd, _, rfl⟩
    · -- the main class has no fields
      cases hx
    · exact ⟨d, hd, hco, (mem_names_fields d x).1 hx⟩
  · rintro ⟨d, hd, hcd, hx⟩
    refine ⟨d.info.1, (habove _).2 ⟨get?_hierarchy_live hd, hcd⟩, ?_⟩
    rw [Bindings.get?_isSome_iff]
    exact (mem_names_fields d x).2 hx

lemma covers_method (hc : c ∈ p.liveClasses) (m : MethodDecl) :
    (p.methodContext c m).Covers p.hierarchy (p.InScope c m) p.classNames where
  seen x := by
    rw [methodContext, Context.enter, Env.resolve_enter, Option.isSome_or, Bool.or_eq_true,
      isSome_get?_scope, isSome_resolve_inClass hc, InScope]
  known := p.isSome_get?_hierarchy

lemma mention?_liveMethod (hc : c ∈ p.liveClasses) (m : MethodDecl) :
    (m.liveFindings p.hierarchy (Context.inClass p.hierarchy ⟨c.info.1, .empty⟩)).filterMap
        Diagnostic.mention? = Mention.unresolved (p.InScope c m) p.classNames m.mentions := by
  have hctx := covers_method hc m
  have htypes := mention?_undeclared hctx.known (p.InScope c m) m.returnType.type
    m.returnType.line
  have hvars := mention?_undeclaredVars hctx.known (p.InScope c m) m.vars
  have hbody : (m.body.flatMap (Stmt.check p.hierarchy (p.methodContext c m))).filterMap
      Diagnostic.mention? =
        Mention.unresolved (p.InScope c m) p.classNames (m.body.flatMap Stmt.mentions) := by
    rw [List.filterMap_flatMap, Mention.unresolved_flatMap]
    exact List.flatMap_congr fun s _ => hctx.mention?_check s
  have hresult := hctx.mention?_checkAs m.returnType.ty m.result
  rw [MethodDecl.mentions, Mention.unresolved_append, Mention.unresolved_append,
    Mention.unresolved_append, ← htypes, ← hvars, ← hbody, ← hresult]
  simp only [MethodDecl.liveFindings, MethodDecl.checkTypes, MethodDecl.checkBody,
    Stmt.checkAll_eq_flatMap, List.filterMap_append, List.append_assoc]
  rfl

lemma mention?_liveClass (hp : p.DistinctNumbers) (hc : c ∈ p.liveClasses) :
    (p.liveFindings c).filterMap Diagnostic.mention? =
      Mention.unresolved (fun _ => False) p.classNames c.mentions ++
        c.liveMethods.flatMap fun m =>
          Mention.unresolved (p.InScope c m) p.classNames m.mentions := by
  have hknown := p.isSome_get?_hierarchy
  have howner : (Context.inClass p.hierarchy ⟨c.info.1, .empty⟩).owner = c.info.1 := rfl
  have hmethods := ClassDecl.flatMap_findings (hp.methods c (mem_of_mem_firsts hc)) p.hierarchy
    howner
  -- no variable can be mentioned outside the methods, so none need be seen there
  rw [liveFindings, ClassDecl.findings, hmethods, List.filterMap_append,
    mention?_overrideMismatches, List.append_nil, List.filterMap_append, List.filterMap_append,
    mention?_checkSuper hknown fun _ => False, mention?_undeclaredVars hknown fun _ => False,
    ← Mention.unresolved_append, List.filterMap_flatMap]
  congr 1
  exact List.flatMap_congr fun m _ => mention?_liveMethod hc m

/-- Every mention of a variable that is not seen and of a class that is not known is told, in the
order of the text and as often as it stands there; whatever else is found in a program, no other
diagnostic is about an undefined name. -/
theorem unresolved_names_told_once {p : Program} (hp : p.DistinctNumbers) :
    ∃ ds, p.Reports ds ∧ ds.filterMap Diagnostic.mention? = p.unresolved := by
  refine ⟨p.findings, check_eq_findings p, ?_⟩
  have hcollect : (Hierarchy.collect .empty p).2.filterMap Diagnostic.mention? = [] := by
    rw [Hierarchy.told_collect, mention?_repeats]
  rw [findings, List.filterMap_append, hcollect, List.nil_append, List.filterMap_append,
    p.covers_main.mention?_check, flatMap_freshFindings hp, List.filterMap_flatMap, unresolved]
  congr 1
  exact List.flatMap_congr fun c hc => mention?_liveClass hp hc

/-- Two classes extend each other, and a third one extends nothing that is declared. Wrong types
stand around most of the names. -/
def strays : Program where
  main := ⟨"Main", "args", .print (.call (.identifier "x" (some 1)) "m"
    [.newObject "Gone" (some 2), .identifier "args" none] none) none, none⟩
  classes :=
    [⟨1, "A", some "B", [⟨⟨.int, none⟩, "f", none⟩, ⟨⟨.ofClass "Gone", none⟩, "f", some 3⟩],
        [⟨2, ⟨.ofClass "Lost", some 4⟩, "m", [⟨⟨.int, none⟩, "y", none⟩], [],
            [.assign "z" (.unary .not (.identifier "g" none) none) (some 5),
              .assignAt "y" (.identifier "z" (some 6)) (.newObject "A" none) none],
            .this none, none⟩,
          ⟨3, ⟨.int, none⟩, "m", [], [], [], .identifier "z" (some 7), none⟩], none⟩,
      ⟨4, "B", some "A", [⟨⟨.boolean, none⟩, "g", none⟩], [], none⟩,
      ⟨5, "C", some "Gone", [],
        [⟨6, ⟨.int, none⟩, "n", [], [], [], .identifier "f" (some 9), none⟩],
        some 8⟩]
  line := none

/-- The field `g` is seen through the circle; the second method `m` is not looked at. -/
theorem unresolved_names_told_once_strays :
    strays.DistinctNumbers ∧ ∃ ds, strays.Reports ds ∧ ds.filterMap Diagnostic.mention? =
      [.ofVar "x" (some 1), .ofClass "Gone" (some 2), .ofClass "Gone" (some 3),
        .ofClass "Lost" (some 4), .ofVar "z" (some 5), .ofVar "z" (some 6),
        .ofClass "Gone" (some 8), .ofVar "f" (some 9)] := by
  have hmethods : ∀ c ∈ strays.classes, (c.methods.map MethodDecl.id).Nodup := by decide
  have hp : strays.DistinctNumbers := ⟨by decide, hmethods⟩
  have hnames : strays.unresolved =
      [.ofVar "x" (some 1), .ofClass "Gone" (some 2), .ofClass "Gone" (some 3),
        .ofClass "Lost" (some 4), .ofVar "z" (some 5), .ofVar "z" (some 6),
        .ofClass "Gone" (some 8), .ofVar "f" (some 9)] := by decide
  obtain ⟨ds, hreports, htold⟩ := unresolved_names_told_once hp
  exact ⟨hp, ds, hreports, htold.trans hnames⟩

end Program

end MiniJava
