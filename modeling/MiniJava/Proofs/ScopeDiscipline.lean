import MiniJava.Proofs.Faults
import MiniJava.Proofs.Modularity
import MiniJava.Typing.Inspection

/-!
# Scope discipline

An inspection works on one stack of scopes and one report that all its parts share. Here each part
is shown to leave the stack as it found it, a class apart, which leaves it empty, and to do nothing
to the report but add to it. So the parts of a list tell what each of them tells alone, and every
method body is inspected under the fields of its class and its own variables, whatever was inspected
before.
-/

namespace MiniJava

namespace Inspection

/-- From context `ctx` the inspection comes to `a` in context `ctx'`, and adds `ds` to the report,
whatever that holds. -/
def Comes {α : Type} (v : Inspection α) (ctx : Context) (a : α) (ctx' : Context)
    (ds : List Diagnostic) : Prop :=
  ∀ r, v ⟨ctx, r⟩ = .ok a ⟨ctx', r.addAll ds⟩

section Steps

variable {α β : Type} {ctx ctx' ctx'' : Context} {ds es : List Diagnostic}

namespace Comes

lemma of_pure (a : α) : (pure a : Inspection α).Comes ctx a ctx [] := by
  intro r
  rw [Report.addAll_nil]
  rfl

lemma andThen {v : Inspection α} {next : α → Inspection β} {a : α} {b : β}
    (hv : v.Comes ctx a ctx' ds) (hnext : (next a).Comes ctx' b ctx'' es) :
    (v >>= next).Comes ctx b ctx'' (ds ++ es) := by
  intro r
  change EStateM.bind v next ⟨ctx, r⟩ = _
  rw [EStateM.bind, hv r, Report.addAll_append]
  exact hnext (r.addAll ds)

lemma thenQuiet {v : Inspection α} {next : α → Inspection β} {a : α} {b : β}
    (hv : v.Comes ctx a ctx' ds) (hnext : (next a).Comes ctx' b ctx'' []) :
    (v >>= next).Comes ctx b ctx'' ds := by
  simpa using hv.andThen hnext

/-- Reading where the inspection stands; what is read of the report does not matter. -/
lemma of_get {next : Inspector → Inspection α} {a : α}
    (hnext : ∀ r, (next ⟨ctx, r⟩).Comes ctx a ctx' ds) :
    (get >>= next : Inspection α).Comes ctx a ctx' ds :=
  fun r => hnext r r

lemma forM {f : α → Inspection Unit} {found : α → List Diagnostic} {l : List α}
    (hf : ∀ x ∈ l, (f x).Comes ctx () ctx (found x)) :
    (l.forM f : Inspection Unit).Comes ctx () ctx (l.flatMap found) := by
  induction l with
  | nil => exact .of_pure ()
  | cons x l ih =>
    obtain ⟨hx, hl⟩ := List.forall_mem_cons.1 hf
    rw [List.flatMap_cons]
    exact hx.andThen (ih hl)

end Comes

lemma comes_tell (d : Diagnostic) : (tell d).Comes ctx () ctx [d] := fun _ => rfl

lemma comes_tell_unless (b : Prop) [Decidable b] (d : Diagnostic) :
    (if b then pure () else tell d : Inspection Unit).Comes ctx () ctx (if b then [] else [d]) := by
  split
  · exact .of_pure ()
  · exact comes_tell d

lemma comes_openScope (sc : Scope Ty) : (openScope sc).Comes ctx () (ctx.enter sc) [] := by
  intro r
  rw [Report.addAll_nil]
  rfl

lemma comes_openScopes (scs : List (Scope Ty)) :
    (scs.forM openScope : Inspection Unit).Comes ctx () (ctx.enterAll scs) [] := by
  induction scs generalizing ctx with
  | nil => exact .of_pure ()
  | cons sc scs ih => exact (comes_openScope sc).andThen ih

lemma comes_closeScope (ctx : Context) (sc : Scope Ty) :
    closeScope.Comes (ctx.enter sc) () ctx [] := by
  intro r
  rw [Report.addAll_nil]
  rfl

/-- As many scopes as are open are closed. -/
lemma comes_closeScopes :
    (closeScopes ctx.env.depth).Comes ctx () { ctx with env := .empty } [] := by
  obtain ⟨owner, ⟨scopes⟩⟩ := ctx
  induction scopes with
  | nil => exact .of_pure ()
  | cons sc scopes ih => exact (comes_closeScope ⟨owner, ⟨scopes⟩⟩ sc).andThen ih

lemma comes_moveTo (inner : Context) : (moveTo inner).Comes ctx () inner [] := by
  intro r
  rw [Report.addAll_nil]
  rfl

lemma comes_within {visit : Inspection Unit} {inner left : Context}
    (hvisit : visit.Comes inner () left ds) : (within inner visit).Comes ctx () ctx ds :=
  .of_get fun _ => (comes_moveTo inner).andThen (hvisit.thenQuiet (comes_moveTo ctx))

end Steps

/-! ### Variables, types and calls -/

section Parts

variable {h : Hierarchy} {ctx : Context}

lemma comes_lookup (h : Hierarchy) (ctx : Context) (name : String) (line : Line) :
    (lookup h name line).Comes ctx ((ctx.env.resolve name).map h.settled) ctx
      (if (ctx.env.resolve name).isSome then [] else [⟨.undefinedIdentifier name, line⟩]) := by
  refine .of_get fun r => ?_
  dsimp only
  cases ctx.env.resolve name with
  | some t => exact .of_pure _
  | none => exact (comes_tell _).thenQuiet (.of_pure none)

lemma comes_demand (actual expected : Ty) (problem : Diagnostic) :
    (demand h actual expected problem).Comes ctx () ctx
      (if h.fits actual expected then [] else [problem]) :=
  comes_tell_unless _ problem

lemma comes_expect {visit : Inspection Ty} {t : Ty} {ds : List Diagnostic}
    (hvisit : visit.Comes ctx t ctx ds) (expected : Ty) (line : Line) :
    (expect h expected line visit).Comes ctx () ctx (expecting h expected line (t, ds)) :=
  hvisit.andThen (comes_demand t expected _)

lemma comes_declared (t : Ty) (line : Line) :
    (declared h t line).Comes ctx () ctx (h.undeclared t line) := by
  cases t with
  | object c => exact comes_tell_unless _ _
  | _ => exact .of_pure ()

lemma comes_arguments (method : String) (pos : Nat) (args : List (Ty × Line)) (params : List Ty) :
    (arguments h method pos args params).Comes ctx () ctx (judgeArgs h method pos args params) := by
  fun_induction judgeArgs h method pos args params with
  | case1 pos actual line args expected params ih =>
    exact (comes_demand actual expected _).andThen ih
  | case2 pos args params hends =>
    unfold arguments
    split
    · exact (hends _ _ _ _ _ rfl rfl).elim
    · exact .of_pure ()

lemma comes_dispatch (receiver : Ty) (receiverLine : Line) (method : String)
    (args : List (Ty × Line)) (line : Line) :
    (dispatch h receiver receiverLine method args line).Comes ctx
      (judgeCall h receiver receiverLine method args line).1 ctx
      (judgeCall h receiver receiverLine method args line).2 := by
  unfold dispatch judgeCall
  cases h.settled receiver with
  | error => exact .of_pure _
  | object className =>
    dsimp only
    cases h.findMethod? className method with
    | none => exact (comes_tell _).thenQuiet (.of_pure _)
    | some m =>
      dsimp only
      split
      · exact (comes_arguments method 1 args m.paramTypes).thenQuiet (.of_pure _)
      · exact (comes_tell _).thenQuiet (.of_pure _)
  | _ => exact (comes_tell _).thenQuiet (.of_pure _)

end Parts

end Inspection

open Inspection

/-! ### Expressions and statements -/

section Code

variable {h : Hierarchy} {ctx : Context}

namespace Expr

lemma inspectAll_comes_of_mem {es : List Expr}
    (hes : ∀ e ∈ es, (e.inspect h).Comes ctx (e.infer h ctx).1 ctx (e.infer h ctx).2) :
    (inspectAll h es).Comes ctx (es.map fun e => (e.infer h ctx).1) ctx
      (es.flatMap fun e => (e.infer h ctx).2) := by
  induction es with
  | nil => exact .of_pure []
  | cons e es ih =>
    obtain ⟨he, hes⟩ := List.forall_mem_cons.1 hes
    exact he.andThen ((ih hes).thenQuiet (.of_pure _))

/-- The inspection of an expression comes to its type and tells its diagnostics. -/
theorem inspect_comes (h : Hierarchy) (ctx : Context) (e : Expr) :
    (e.inspect h).Comes ctx (e.infer h ctx).1 ctx (e.infer h ctx).2 := by
  induction e using Expr.induction with
  | unary op e line ih =>
    cases op
    exact (comes_expect ih .boolean e.line).thenQuiet (.of_pure _)
  | binary op l r line ihl ihr =>
    exact (comes_expect ihl op.operand l.line).andThen
      ((comes_expect ihr op.operand r.line).thenQuiet (.of_pure _))
  | arrayLookup a i line iha ihi =>
    exact (comes_expect iha .intArray a.line).andThen
      ((comes_expect ihi .int i.line).thenQuiet (.of_pure _))
  | arrayLength a line ih => exact (comes_expect ih .intArray a.line).thenQuiet (.of_pure _)
  | call e method args line ihe ihargs =>
    -- receiver and arguments are inspected before the call is judged, whatever is wrong with them
    have hzip : (args.map fun a => (a.infer h ctx).1).zip (args.map Expr.line) =
        args.map fun a => ((a.infer h ctx).1, a.line) := List.zip_map'
    rw [infer_call, ← hzip, List.append_assoc]
    exact ihe.andThen ((inspectAll_comes_of_mem ihargs).andThen (comes_dispatch _ _ method _ line))
  | newArray n line ih => exact (comes_expect ih .int n.line).thenQuiet (.of_pure _)
  | newObject c line =>
    unfold inspect infer
    split
    · exact .of_pure _
    · exact (comes_tell _).thenQuiet (.of_pure _)
  | this line => exact .of_get fun r => .of_pure _
  | identifier x line =>
    have hlook := comes_lookup h ctx x line
    unfold infer Context.typeOf
    cases hx : ctx.env.resolve x with
    | some t =>
      rw [hx] at hlook
      exact hlook.thenQuiet (.of_pure _)
    | none =>
      rw [hx] at hlook
      exact hlook.thenQuiet (.of_pure _)
  | intLiteral n line => exact .of_pure _
  | boolLiteral b line => exact .of_pure _

theorem inspectAll_comes (h : Hierarchy) (ctx : Context) (es : List Expr) :
    (inspectAll h es).Comes ctx (es.map fun e => (e.infer h ctx).1) ctx
      (es.flatMap fun e => (e.infer h ctx).2) :=
  inspectAll_comes_of_mem fun e _ => e.inspect_comes h ctx

lemma inspectAs_comes (h : Hierarchy) (ctx : Context) (expected : Ty) (e : Expr) :
    (e.inspectAs h expected).Comes ctx () ctx (e.checkAs h ctx expected) :=
  comes_expect (e.inspect_comes h ctx) expected e.line

lemma inspectAsCondition_comes (e : Expr) :
    (e.inspectAsCondition h).Comes ctx () ctx (e.checkAsCondition h ctx) :=
  (e.inspect_comes h ctx).andThen (comes_demand _ .boolean _)

end Expr

namespace Stmt

lemma inspectAll_comes_of_mem {ss : List Stmt}
    (hss : ∀ s ∈ ss, (s.inspect h).Comes ctx () ctx (s.check h ctx)) :
    (inspectAll h ss).Comes ctx () ctx (ss.flatMap (check h ctx)) := by
  induction ss with
  | nil => exact .of_pure ()
  | cons s ss ih =>
    obtain ⟨hs, hss⟩ := List.forall_mem_cons.1 hss
    rw [List.flatMap_cons]
    exact hs.andThen (ih hss)

/-- The inspection of a statement tells its diagnostics. -/
theorem inspect_comes (h : Hierarchy) (ctx : Context) (s : Stmt) :
    (s.inspect h).Comes ctx () ctx (s.check h ctx) := by
  induction s using Stmt.induction with
  | block body line ih =>
    rw [check, checkAll_eq_flatMap]
    exact inspectAll_comes_of_mem ih
  | branch cond yes no line ihyes ihno =>
    rw [check, List.append_assoc]
    exact cond.inspectAsCondition_comes.andThen (ihyes.andThen ihno)
  | loop cond body line ih => exact cond.inspectAsCondition_comes.andThen ih
  | print e line => exact e.inspectAs_comes h ctx .int
  | assign x e line =>
    have hlook := comes_lookup h ctx x line
    have he := e.inspect_comes h ctx
    unfold check checkAssign Context.typeOf
    cases hx : ctx.env.resolve x with
    | some t =>
      rw [hx] at hlook
      exact hlook.andThen (he.andThen (comes_demand _ (h.settled t) _))
    | none =>
      rw [hx] at hlook
      exact hlook.andThen (he.thenQuiet (.of_pure ()))
  | assignAt x i e line =>
    have hlook := comes_lookup h ctx x line
    have hi := i.inspectAs_comes h ctx .int
    have he := e.inspectAs_comes h ctx .int
    unfold check checkAssignAt Context.typeOf
    rw [List.append_assoc]
    cases hx : ctx.env.resolve x with
    | some t =>
      rw [hx] at hlook
      exact hlook.andThen ((comes_demand (h.settled t) .intArray _).andThen (hi.andThen he))
    | none =>
      rw [hx] at hlook
      exact hlook.andThen (hi.andThen he)

theorem inspectAll_comes (h : Hierarchy) (ctx : Context) (ss : List Stmt) :
    (inspectAll h ss).Comes ctx () ctx (ss.flatMap (check h ctx)) :=
  inspectAll_comes_of_mem fun s _ => s.inspect_comes h ctx

end Stmt

end Code

/-! ### Declarations -/

section Declarations

variable {h : Hierarchy} {ctx : Context}

namespace MethodDecl

lemma inspectHead_comes (d : MethodDecl) (m : MethodInfo) :
    (d.inspectHead h m).Comes ctx () (ctx.enter m.scope) (d.checkTypes h m) := by
  have hvars :
      ((d.formals ++ d.locals).forM fun v => declared h v.ty v.line : Inspection Unit).Comes
      ctx () ctx ((d.formals ++ d.locals).flatMap (·.undeclared h)) :=
    .forM fun v _ => comes_declared v.ty v.line
  exact (comes_declared m.returnType d.returnType.line).andThen
    (hvars.thenQuiet (comes_openScope m.scope))

lemma inspectBody_comes (d : MethodDecl) (m : MethodInfo) :
    (d.inspectBody h m).Comes ctx () ctx (d.checkBody h ctx m) := by
  rw [checkBody, Stmt.checkAll_eq_flatMap]
  exact (Stmt.inspectAll_comes h ctx d.body).andThen (d.result.inspectAs_comes h ctx m.returnType)

/-- A method closes the scope that it opens. -/
theorem inspect_comes (h : Hierarchy) (ctx : Context) (d : MethodDecl) :
    (d.inspect h).Comes ctx () ctx (d.findings h ctx) := by
  refine .of_get fun r => ?_
  unfold findings
  dsimp only
  cases d.live? ctx.owner with
  | none => exact .of_pure ()
  | some m =>
    exact (d.inspectHead_comes m).andThen
      ((d.inspectBody_comes m).thenQuiet (comes_closeScope _ m.scope))

lemma forM_inspect_comes (h : Hierarchy) (ctx : Context) (ds : List MethodDecl) :
    (ds.forM (·.inspect h) : Inspection Unit).Comes ctx () ctx (ds.flatMap (·.findings h ctx)) :=
  .forM fun d _ => d.inspect_comes h ctx

end MethodDecl

namespace ClassDecl

lemma inspectSuper_comes (d : ClassDecl) (owner : ClassInfo) :
    (d.inspectSuper h owner).Comes ctx () ctx (d.checkSuper h owner) := by
  unfold inspectSuper checkSuper
  cases d.superName with
  | none => exact .of_pure ()
  | some s =>
    dsimp only
    split
    · exact comes_tell _
    · split
      · exact comes_tell _
      · exact .of_pure ()

lemma inspectOverrides_comes (d : ClassDecl) (owner : ClassInfo) :
    (d.inspectOverrides h owner).Comes ctx () ctx
      (d.overrideMismatches owner (h.ancestors owner)) := by
  refine .forM fun e _ => ?_
  cases (h.ancestors owner).findSome? (·.methods.get? e.1) with
  | none => exact .of_pure ()
  | some overridden => exact comes_tell_unless _ _

lemma inspectHead_comes (d : ClassDecl) (owner : ClassInfo) :
    (d.inspectHead h owner).Comes ctx () (ctx.enterAll (h.visibleFields owner))
      (d.checkSuper h owner ++ d.fields.flatMap (·.undeclared h)) := by
  have hfields : (d.fields.forM fun v => declared h v.ty v.line : Inspection Unit).Comes
      ctx () ctx (d.fields.flatMap (·.undeclared h)) :=
    .forM fun v _ => comes_declared v.ty v.line
  exact (d.inspectSuper_comes owner).andThen
    (hfields.thenQuiet (comes_openScopes (h.visibleFields owner)))

lemma inspectTail_comes (d : ClassDecl) (owner : ClassInfo) :
    (d.inspectTail h owner).Comes ctx () { ctx with env := .empty }
      (d.overrideMismatches owner (h.ancestors owner)) :=
  .of_get fun _ => comes_closeScopes.andThen (d.inspectOverrides_comes owner)

/-- A class closes all scopes, also those that were open before. -/
theorem inspect_comes (h : Hierarchy) (ctx : Context) (d : ClassDecl) :
    (d.inspect h).Comes ctx () { ctx with env := .empty } (d.findings h ctx) := by
  have hmethods := MethodDecl.forM_inspect_comes h (ctx.inClass h) d.methods
  refine .of_get fun r => ?_
  rw [findings, List.append_assoc]
  exact (d.inspectHead_comes ctx.owner).andThen
    (hmethods.andThen (d.inspectTail_comes ctx.owner))

theorem inspectFresh_comes (h : Hierarchy) (ctx : Context) (d : ClassDecl) :
    (d.inspectFresh h).Comes ctx () ctx (d.freshFindings h) := by
  unfold inspectFresh freshFindings
  cases d.live? h with
  | none => exact .of_pure ()
  | some owner => exact comes_within (d.inspect_comes h ⟨owner, .empty⟩)

lemma forM_inspectFresh_comes (h : Hierarchy) (ctx : Context) (ds : List ClassDecl) :
    (ds.forM (·.inspectFresh h) : Inspection Unit).Comes ctx () ctx
      (ds.flatMap (·.freshFindings h)) :=
  .forM fun d _ => d.inspectFresh_comes h ctx

end ClassDecl

namespace MainClass

lemma inspect_comes {m : MainClass} {inner : Context} (hinner : m.context? h = some inner) :
    (m.inspect h).Comes ctx () ctx (m.body.check h inner) := by
  obtain ⟨owner, howner, hmap⟩ := Option.bind_eq_some_iff.1 hinner
  obtain ⟨method, hmethod, rfl⟩ := Option.map_eq_some_iff.1 hmap
  unfold inspect
  rw [howner]
  simp only [hmethod]
  have hbody := m.body.inspect_comes h (Context.enter ⟨owner, .empty⟩ method.scope)
  exact comes_within ((comes_openScope method.scope).andThen
    (hbody.thenQuiet (comes_closeScope _ method.scope)))

lemma inspect_eq_error {m : MainClass} (hm : h.LacksMain m.name) (s : Inspector) :
    m.inspect h s = .error .noMainMethod s := by
  unfold inspect
  rcases hm with hnone | ⟨c, hc, hnone⟩
  · rw [hnone]
    rfl
  · rw [hc]
    simp only [hnone]
    rfl

end MainClass

namespace Program

lemma inspect_comes {p : Program} {inner : Context} (hinner : p.main.context? h = some inner) :
    (p.inspect h).Comes ctx () ctx
      (p.main.body.check h inner ++ p.classes.flatMap (·.freshFindings h)) :=
  (MainClass.inspect_comes hinner).andThen (ClassDecl.forM_inspectFresh_comes h ctx p.classes)

lemma inspect_eq_error {p : Program} (hp : h.LacksMain p.main.name) (s : Inspector) :
    p.inspect h s = .error .noMainMethod s := by
  change EStateM.bind (p.main.inspect h) _ s = _
  rw [EStateM.bind, MainClass.inspect_eq_error hp]

end Program

end Declarations

/-! ### Inspecting and checking -/

/-- The inspection comes to what the check comes to, and adds the diagnostics to the report; where
the check has a fault, the inspection has it and nothing has changed. -/
def Inspection.Follows (v : Inspection Outcome) (ctx : Context) (c : Except Fault Visit) : Prop :=
  ∀ r, v ⟨ctx, r⟩ = match c with
    | .ok visit => .ok visit.outcome ⟨visit.context, r.addAll (diagnostics visit.trace)⟩
    | .error f => .error f ⟨ctx, r⟩

namespace Inspection

variable {α : Type} {ctx ctx' : Context} {ds : List Diagnostic}

lemma Comes.follows {v : Inspection Outcome} {out : Outcome} {events : List Event}
    (hv : v.Comes ctx out ctx' (diagnostics events)) :
    v.Follows ctx (.ok ⟨out, ctx', events⟩) :=
  hv

lemma Comes.follows_trail {v : Inspection Unit} {t : Trail α} {a : α} (left : α → Context)
    (hv : v.Comes ctx () (left a) ds) (ht : t.Finds a ds) :
    Follows (do v; return .nothing) ctx
      (do let (a, events) ← t.result; return ⟨.nothing, left a, events⟩) := by
  have hresult : t.result = .ok (a, t.events) := by
    rw [Trail.result, ht.outcome]
    rfl
  rw [hresult]
  apply follows
  have hds : diagnostics t.events = ds := ht.diagnostics
  rw [hds]
  exact hv.thenQuiet (.of_pure _)

lemma follows_fail {v : Inspection Unit} {t : Trail α} {f : Fault} (left : α → Context)
    (hv : ∀ s, v s = .error f s) (ht : t = .fail f) :
    Follows (do v; return .nothing) ctx
      (do let (a, events) ← t.result; return ⟨.nothing, left a, events⟩) := by
  intro r
  rw [ht]
  change EStateM.bind v _ ⟨ctx, r⟩ = .error f ⟨ctx, r⟩
  rw [EStateM.bind, hv]

end Inspection

lemma ClassDecl.forM_inspect_comes (h : Hierarchy) (ctx : Context) (ds : List ClassDecl) :
    ∃ left es, (ds.forM (·.inspect h) : Inspection Unit).Comes ctx () left es ∧
      (checkAll h ctx ds).Finds left es := by
  induction ds generalizing ctx with
  | nil => exact ⟨ctx, [], .of_pure (), .of_pure ctx⟩
  | cons d ds ih =>
    obtain ⟨left, es, hinspect, hcheck⟩ := ih { ctx with env := .empty }
    exact ⟨left, _, (d.inspect_comes h ctx).andThen hinspect, (d.check_finds h ctx).andThen hcheck⟩

namespace Node

variable {h : Hierarchy} {ctx : Context}

lemma inspect_stmt_comes (s : Stmt) :
    ((Node.stmt s).inspect h).Comes ctx .nothing ctx (s.check h ctx) :=
  (s.inspect_comes h ctx).thenQuiet (.of_pure _)

lemma inspect_stmts_comes (ss : List Stmt) (line : Line) :
    ((Node.stmts ss line).inspect h).Comes ctx .nothing ctx (ss.flatMap (Stmt.check h ctx)) :=
  (Stmt.inspectAll_comes h ctx ss).thenQuiet (.of_pure _)

lemma inspect_expr_comes (e : Expr) :
    ((Node.expr e).inspect h).Comes ctx (.type (e.infer h ctx).1) ctx (e.infer h ctx).2 :=
  (e.inspect_comes h ctx).thenQuiet (.of_pure _)

lemma inspect_exprs_comes (es : List Expr) (line : Line) :
    ((Node.exprs es line).inspect h).Comes ctx (.ofTypes (es.map fun e => (e.infer h ctx).1)) ctx
      (es.flatMap fun e => (e.infer h ctx).2) :=
  (Expr.inspectAll_comes h ctx es).thenQuiet (.of_pure _)

theorem inspect_follows (h : Hierarchy) (ctx : Context) (n : Node) :
    (n.inspect h).Follows ctx (n.check h ctx) := by
  cases n with
  | program p =>
    rcases h.lacksMain_or_context? p.main with ⟨hlacks, _⟩ | ⟨_, inner, hinner⟩
    · exact follows_fail (fun _ => ctx) (Program.inspect_eq_error hlacks)
        (Program.checkAgainst_eq_fail hlacks)
    · exact (Program.inspect_comes hinner).follows_trail (fun _ => ctx)
        (Program.checkAgainst_finds hinner)
  | mainClass m =>
    rcases h.lacksMain_or_context? m with ⟨hlacks, _⟩ | ⟨_, inner, hinner⟩
    · exact follows_fail (fun _ => ctx) (MainClass.inspect_eq_error hlacks)
        (MainClass.check_eq_fail hlacks)
    · exact (MainClass.inspect_comes hinner).follows_trail (fun _ => ctx)
        (MainClass.check_finds hinner)
  | classDecl d => exact (d.inspect_comes h ctx).follows_trail id (d.check_finds h ctx)
  | classes ds line =>
    obtain ⟨left, es, hinspect, hcheck⟩ := ClassDecl.forM_inspect_comes h ctx ds
    exact Comes.follows_trail id hinspect hcheck
  | methodDecl d => exact (d.inspect_comes h ctx).follows_trail id (d.check_finds h ctx)
  | methods ds line =>
    exact Comes.follows_trail id (MethodDecl.forM_inspect_comes h ctx ds)
      (MethodDecl.checkAll_finds h ctx ds)
  | stmt s =>
    apply Comes.follows
    rw [diagnostics_map_reported]
    exact inspect_stmt_comes s
  | stmts ss line =>
    apply Comes.follows
    rw [diagnostics_map_reported, Stmt.checkAll_eq_flatMap]
    exact inspect_stmts_comes ss line
  | expr e =>
    apply Comes.follows
    rw [diagnostics_map_reported]
    exact inspect_expr_comes e
  | exprs es line =>
    apply Comes.follows
    rw [diagnostics_map_reported, Expr.inferAll_eq_map, List.map_map, List.flatMap_map]
    exact inspect_exprs_comes es line
  | varDecl d => exact fun r => rfl
  | vars ds line =>
    cases ds with
    | nil => exact Comes.follows (.of_pure _)
    | cons d ds => exact fun r => rfl
  | typeLiteral t => exact fun r => rfl

/-- A statement, an expression, a method, or a list of such. -/
def IsCode : Node → Prop
  | .stmt _ | .stmts _ _ | .expr _ | .exprs _ _ | .methodDecl _ | .methods _ _ => True
  | _ => False

lemma IsCode.inspect_comes (h : Hierarchy) (ctx : Context) {n : Node} (hn : n.IsCode) :
    ∃ out ds, (n.inspect h).Comes ctx out ctx ds := by
  cases n with
  | stmt s => exact ⟨_, _, inspect_stmt_comes s⟩
  | stmts ss line => exact ⟨_, _, inspect_stmts_comes ss line⟩
  | expr e => exact ⟨_, _, inspect_expr_comes e⟩
  | exprs es line => exact ⟨_, _, inspect_exprs_comes es line⟩
  | methodDecl d => exact ⟨_, _, (d.inspect_comes h ctx).thenQuiet (.of_pure _)⟩
  | methods ds line =>
    exact ⟨_, _, (MethodDecl.forM_inspect_comes h ctx ds).thenQuiet (.of_pure _)⟩
  | _ => exact hn.elim

end Node

/-! ### The way to a method body -/

namespace MethodPlace

variable {p : Program} (place : MethodPlace p)

/-- All that is inspected before the body of the method, and the opening of its scope. -/
def approach (h : Hierarchy) (owner : ClassInfo) (m : MethodInfo) : Inspection Unit := do
  p.main.inspect h
  place.before.forM (·.inspectFresh h)
  moveTo { owner }
  place.owner.inspectHead h owner
  place.earlier.forM (·.inspect h)
  place.method.inspectHead h m

/-- The closing of the scope, and all that is inspected after the body. -/
def departure (h : Hierarchy) (owner : ClassInfo) (outer : Context) : Inspection Unit := do
  closeScope
  place.later.forM (·.inspect h)
  place.owner.inspectTail h owner
  moveTo outer
  place.after.forM (·.inspectFresh h)

variable {h : Hierarchy} {owner : ClassInfo} {m : MethodInfo} {ctx : Context}

lemma approach_comes {inner : Context} (hinner : p.main.context? h = some inner) :
    (place.approach h owner m).Comes ctx () ((Context.inClass h ⟨owner, .empty⟩).enter m.scope)
      (p.main.body.check h inner ++ (place.before.flatMap (·.freshFindings h) ++
        (place.owner.checkSuper h owner ++ place.owner.fields.flatMap (·.undeclared h) ++
          (place.earlier.flatMap (·.findings h (Context.inClass h ⟨owner, .empty⟩)) ++
            place.method.checkTypes h m)))) := by
  have hclass : (place.owner.inspectHead h owner).Comes ⟨owner, .empty⟩ ()
      (Context.inClass h ⟨owner, .empty⟩) _ := place.owner.inspectHead_comes owner
  have hearlier := MethodDecl.forM_inspect_comes h (Context.inClass h ⟨owner, .empty⟩) place.earlier
  exact (MainClass.inspect_comes hinner).andThen
    ((ClassDecl.forM_inspectFresh_comes h ctx place.before).andThen
      ((comes_moveTo ⟨owner, .empty⟩).andThen
        (hclass.andThen (hearlier.andThen (place.method.inspectHead_comes m)))))

lemma departure_comes (outer : Context) :
    (place.departure h owner outer).Comes ((Context.inClass h ⟨owner, .empty⟩).enter m.scope) ()
      outer (place.later.flatMap (·.findings h (Context.inClass h ⟨owner, .empty⟩)) ++
        (place.owner.overrideMismatches owner (h.ancestors owner) ++
          place.after.flatMap (·.freshFindings h))) := by
  have hlater := MethodDecl.forM_inspect_comes h (Context.inClass h ⟨owner, .empty⟩) place.later
  have hafter := ClassDecl.forM_inspectFresh_comes h outer place.after
  exact (comes_closeScope _ m.scope).andThen (hlater.andThen
    ((place.owner.inspectTail_comes owner).andThen ((comes_moveTo outer).andThen hafter)))

/-- What the classes of the program tell, cut before and behind the body of the method. -/
lemma flatMap_freshFindings (howner : place.owner.live? h = some owner)
    (hm : place.method.live? owner = some m) :
    p.classes.flatMap (·.freshFindings h) =
      place.before.flatMap (·.freshFindings h) ++
        (place.owner.checkSuper h owner ++ place.owner.fields.flatMap (·.undeclared h) ++
          (place.earlier.flatMap (·.findings h (Context.inClass h ⟨owner, .empty⟩)) ++
            place.method.checkTypes h m)) ++
        (place.method.checkBody h ((Context.inClass h ⟨owner, .empty⟩).enter m.scope) m ++
          (place.later.flatMap (·.findings h (Context.inClass h ⟨owner, .empty⟩)) ++
            (place.owner.overrideMismatches owner (h.ancestors owner) ++
              place.after.flatMap (·.freshFindings h)))) := by
  have hclass : place.owner.freshFindings h = place.owner.findings h ⟨owner, .empty⟩ := by
    rw [ClassDecl.freshFindings, howner]
  have hmethod : place.method.findings h (Context.inClass h ⟨owner, .empty⟩) =
      place.method.checkTypes h m ++
        place.method.checkBody h ((Context.inClass h ⟨owner, .empty⟩).enter m.scope) m := by
    have hlive : place.method.live? (Context.inClass h ⟨owner, .empty⟩).owner = some m := hm
    rw [MethodDecl.findings, hlive]
  simp only [place.classes_eq, List.flatMap_append, List.flatMap_cons, hclass, ClassDecl.findings,
    place.methods_eq, hmethod, List.append_assoc]

/-- The inspection of a program comes by each method body that is not skipped. -/
theorem inspect_eq (howner : place.owner.live? h = some owner)
    (hm : place.method.live? owner = some m) :
    p.inspect h = (do
      let outer := (← get).context
      place.approach h owner m
      place.method.inspectBody h m
      place.departure h owner outer) := by
  funext ⟨ctx, r⟩
  -- without a main method neither side begins; otherwise nothing can fail on the way
  rcases h.lacksMain_or_context? p.main with ⟨hlacks, _⟩ | ⟨_, inner, hinner⟩
  · have happroach : place.approach h owner m ⟨ctx, r⟩ = .error .noMainMethod ⟨ctx, r⟩ := by
      change EStateM.bind (p.main.inspect h) _ ⟨ctx, r⟩ = _
      rw [EStateM.bind, MainClass.inspect_eq_error hlacks]
    change _ = EStateM.bind (place.approach h owner m) _ ⟨ctx, r⟩
    rw [Program.inspect_eq_error hlacks, EStateM.bind, happroach]
  · have hprogram : (p.inspect h).Comes ctx () ctx _ := Program.inspect_comes hinner
    rw [place.flatMap_freshFindings howner hm, ← List.append_assoc] at hprogram
    have hway : Comes (do
        place.approach h owner m
        place.method.inspectBody h m
        place.departure h owner ctx) ctx () ctx _ :=
      (place.approach_comes hinner).andThen
        ((place.method.inspectBody_comes m).andThen (place.departure_comes ctx))
    exact (hprogram r).trans (hway r).symm

lemma bodyContext_eq : (Context.inClass h ⟨owner, .empty⟩).enter m.scope =
    ⟨owner, ⟨(h.visibleFields owner ++ [m.scope]).reverse⟩⟩ := by
  have hopen : (Env.empty.enterAll (h.visibleFields owner)).scopes =
      (h.visibleFields owner).reverse := by
    simpa [Env.empty] using Env.scopes_enterAll .empty (h.visibleFields owner)
  rw [List.reverse_append, ← hopen]
  rfl

end MethodPlace

/-- An inspection does what the check of the node says. Code leaves the scopes as they were and only
adds to the report; a class leaves no scope open. A list of statements or of expressions gives what
its members give alone, one after another. The inspection of a program comes by each method body
that is not skipped, and then exactly the fields of the class and above them the variables of the
method are open. -/
theorem inspection_keeps_scopes (h : Hierarchy) (ctx : Context) :
    (∀ n : Node, (n.inspect h).Follows ctx (n.check h ctx)) ∧
    (∀ n : Node, n.IsCode → ∃ out told, ∀ r,
      n.inspect h ⟨ctx, r⟩ = .ok out ⟨ctx, ⟨r.findings ++ told⟩⟩) ∧
    (∀ d : ClassDecl, ∃ told, ∀ r, (Node.classDecl d).inspect h ⟨ctx, r⟩ =
      .ok .nothing ⟨⟨ctx.owner, .empty⟩, ⟨r.findings ++ told⟩⟩) ∧
    (∃ told : Stmt → List Finding,
      (∀ s, (Node.stmt s).inspect h ⟨ctx, {}⟩ = .ok .nothing ⟨ctx, ⟨told s⟩⟩) ∧
      ∀ ss line r, (Node.stmts ss line).inspect h ⟨ctx, r⟩ =
        .ok .nothing ⟨ctx, ⟨r.findings ++ ss.flatMap told⟩⟩) ∧
    (∃ (type : Expr → Ty) (told : Expr → List Finding),
      (∀ e, (Node.expr e).inspect h ⟨ctx, {}⟩ = .ok (.type (type e)) ⟨ctx, ⟨told e⟩⟩) ∧
      ∀ es line r, (Node.exprs es line).inspect h ⟨ctx, r⟩ =
        .ok (.ofTypes (es.map type)) ⟨ctx, ⟨r.findings ++ es.flatMap told⟩⟩) ∧
    ∀ (p : Program) (place : MethodPlace p) (owner : ClassInfo) (m : MethodInfo),
      place.owner.live? h = some owner → place.method.live? owner = some m →
      p.inspect h = (do
        let outer := (← get).context
        place.approach h owner m
        place.method.inspectBody h m
        place.departure h owner outer) ∧
      (¬ h.LacksMain p.main.name → ∃ told, ∀ r, place.approach h owner m ⟨ctx, r⟩ =
        .ok () ⟨⟨owner, ⟨(h.visibleFields owner ++ [m.scope]).reverse⟩⟩,
          ⟨r.findings ++ told⟩⟩) := by
  refine ⟨fun n => n.inspect_follows h ctx, ?_, ?_, ?_, ?_, ?_⟩
  · intro n hn
    obtain ⟨out, ds, hcomes⟩ := hn.inspect_comes h ctx
    exact ⟨out, _, hcomes⟩
  · intro d
    exact ⟨_, (d.inspect_comes h ctx).thenQuiet (.of_pure _)⟩
  · refine ⟨fun s => (s.check h ctx).map (·.finding), fun s => ?_, fun ss line r => ?_⟩
    · exact Node.inspect_stmt_comes s {}
    · rw [← List.map_flatMap]
      exact Node.inspect_stmts_comes ss line r
  · refine ⟨fun e => (e.infer h ctx).1, fun e => (e.infer h ctx).2.map (·.finding), fun e => ?_,
      fun es line r => ?_⟩
    · exact Node.inspect_expr_comes e {}
    · rw [← List.map_flatMap]
      exact Node.inspect_exprs_comes es line r
  · intro p place owner m howner hm
    refine ⟨place.inspect_eq howner hm, fun hmain => ?_⟩
    rcases h.lacksMain_or_context? p.main with ⟨hlacks, _⟩ | ⟨_, inner, hinner⟩
    · exact absurd hlacks hmain
    · have happroach : (place.approach h owner m).Comes ctx () _ _ := place.approach_comes hinner
      rw [MethodPlace.bodyContext_eq] at happroach
      exact ⟨_, happroach⟩

namespace Program

/-- Class `A` has a field `y`. Its method `f` has a parameter `x`, and `x` is also the name that
`g` returns, without a variable of that name. -/
def leakingClass : ClassDecl :=
  ⟨1, "A", none, [⟨⟨.int, none⟩, "y", none⟩],
    [⟨2, ⟨.int, none⟩, "f", [⟨⟨.int, none⟩, "x", none⟩], [],
        [.assign "x" (.boolLiteral true none) (some 3)], .identifier "x" none, none⟩,
      ⟨3, ⟨.int, none⟩, "g", [], [], [], .identifier "x" (some 4), none⟩], none⟩

def leaking : Program := ⟨⟨"Main", "args", .block [] none, none⟩, [leakingClass], none⟩

/-- The place of `g`. -/
def leakingSecond : MethodPlace leaking where
  before := []
  owner := leakingClass
  after := []
  classes_eq := rfl
  earlier := leakingClass.methods.take 1
  method := ⟨3, ⟨.int, none⟩, "g", [], [], [], .identifier "x" (some 4), none⟩
  later := []
  methods_eq := rfl

/-- The variables of `f` are gone when the body of `g` is inspected, and the field is there. -/
theorem inspection_keeps_scopes_leaking :
    ∃ owner m, leakingSecond.owner.live? leaking.hierarchy = some owner ∧
      leakingSecond.method.live? owner = some m ∧ ¬ leaking.hierarchy.LacksMain "Main" ∧
      ∃ env told, (∀ r, leakingSecond.approach leaking.hierarchy owner m ⟨default, r⟩ =
          .ok () ⟨⟨owner, env⟩, ⟨r.findings ++ told⟩⟩) ∧
        env.resolve "x" = none ∧ env.resolve "y" = some .int := by
  have hmain : ¬ leaking.hierarchy.LacksMain "Main" := by
    rintro (hnone | ⟨c, hc, hnone⟩)
    · cases hnone
    · cases hc
      cases hnone
  obtain ⟨_, _, _, _, _, hplaces⟩ := inspection_keeps_scopes leaking.hierarchy default
  obtain ⟨_, happroach⟩ := hplaces leaking leakingSecond leakingSecond.owner.info.1
    leakingSecond.method.info.1 rfl rfl
  obtain ⟨told, htold⟩ := happroach hmain
  exact ⟨_, _, rfl, rfl, hmain, _, told, htold, by decide, by decide⟩

end Program

end MiniJava
