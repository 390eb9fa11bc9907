import MiniJava.Proofs.Inference
import MiniJava.Proofs.Mentions
import MiniJava.Proofs.Parallel
import MiniJava.Typing.Decl

/-!
# What typing depends on

Typing asks a hierarchy three things: which classes there are, which class derives from which, and
which method a class answers a call with. It asks a context for the class it is in and for the types
of variables. Where all answers are the same, so are the types and the diagnostics. It is enough
that the answers are the same for some classes, if neither the text nor any answer leads to another
one.

The answers of a hierarchy in turn depend only on what its classes have under each name: neither the
order of the classes nor that of their members counts, on circles of superclasses either.
-/

namespace MiniJava

/-! ### The same answers for some classes -/

/-- The type is of no class but those in `On`. -/
def Ty.Among (On : String → Prop) : Ty → Prop
  | .object c => On c
  | _ => True

def Mention.Among (On : String → Prop) : Mention → Prop
  | .ofClass c _ => On c
  | .ofVar _ _ => True

/-- The hierarchies give the same answers for the classes in `On`, and the methods found there speak
of no other class. -/
structure Hierarchy.AlikeOn (On : String → Prop) (h k : Hierarchy) : Prop where
  known : ∀ c, On c → (h.get? c).isSome = (k.get? c).isSome
  derivesFrom : ∀ a b, On a → On b → h.derivesFrom a b = k.derivesFrom a b
  findMethod? : ∀ c m, On c → h.findMethod? c m = k.findMethod? c m
  result : ∀ c m i, On c → h.findMethod? c m = some i → i.returnType.Among On
  params : ∀ c m i, On c → h.findMethod? c m = some i → ∀ t ∈ i.paramTypes, t.Among On

/-- The contexts give the same answers, and these are of no class outside `On`. -/
structure Context.AlikeOn (On : String → Prop) (ctx dtx : Context) : Prop where
  owner : ctx.owner.name = dtx.owner.name
  inside : On ctx.owner.name
  resolve : ∀ x, ctx.env.resolve x = dtx.env.resolve x
  types : ∀ x t, ctx.env.resolve x = some t → t.Among On

lemma BinaryOp.among_operand (On : String → Prop) (op : BinaryOp) : op.operand.Among On := by
  cases op <;> trivial

lemma BinaryOp.among_result (On : String → Prop) (op : BinaryOp) : op.result.Among On := by
  cases op <;> trivial

lemma TypeName.among_of_mentions {On : String → Prop} {t : TypeName} {line : Line}
    (ht : ∀ m ∈ t.mentions line, m.Among On) : t.ty.Among On := by
  cases t with
  | ofClass c => exact ht _ List.mem_cons_self
  | _ => trivial

namespace Hierarchy.AlikeOn

variable {On : String → Prop} {h k : Hierarchy} {ctx dtx : Context}

lemma settled (hhk : h.AlikeOn On k) {t : Ty} (ht : t.Among On) : h.settled t = k.settled t := by
  cases t with
  | object c => simp only [Hierarchy.settled, hhk.known c ht]
  | _ => rfl

lemma among_settled (h : Hierarchy) {t : Ty} (ht : t.Among On) : (h.settled t).Among On := by
  cases t with
  | object c =>
    rw [Hierarchy.settled]
    split
    · exact ht
    · trivial
  | _ => trivial

lemma fits (hhk : h.AlikeOn On k) {s t : Ty} (hs : s.Among On) (ht : t.Among On) :
    h.fits s t = k.fits s t := by
  have hassign : ∀ s t : Ty, s.Among On → t.Among On → h.assignable s t = k.assignable s t := by
    intro s t hs ht
    cases s with
    | object a =>
      cases t with
      | object b => exact hhk.derivesFrom a b hs ht
      | _ => rfl
    | _ => cases t <;> rfl
  rw [Hierarchy.fits, Hierarchy.fits, ← hhk.settled hs, ← hhk.settled ht]
  exact hassign _ _ (among_settled h hs) (among_settled h ht)

lemma undeclared (hhk : h.AlikeOn On k) {t : Ty} (ht : t.Among On) (line : Line) :
    h.undeclared t line = k.undeclared t line := by
  cases t with
  | object c => simp only [Hierarchy.undeclared, hhk.known c ht]
  | _ => rfl

lemma expecting (hhk : h.AlikeOn On k) {t : Ty} (ht : t.Among On) (line : Line)
    {r : Ty × List Diagnostic} (hr : r.1.Among On) :
    expecting h t line r = expecting k t line r := by
  rw [MiniJava.expecting, MiniJava.expecting, hhk.fits hr ht]

lemma judgeArgs (hhk : h.AlikeOn On k) (method : String) (pos : Nat) {args : List (Ty × Line)}
    (hargs : ∀ a ∈ args, a.1.Among On) {params : List Ty} (hparams : ∀ t ∈ params, t.Among On) :
    judgeArgs h method pos args params = judgeArgs k method pos args params := by
  induction args generalizing pos params with
  | nil => rfl
  | cons arg args ih =>
    cases params with
    | nil => rfl
    | cons param params =>
      obtain ⟨harg, hargs⟩ := List.forall_mem_cons.1 hargs
      obtain ⟨hparam, hparams⟩ := List.forall_mem_cons.1 hparams
      rw [MiniJava.judgeArgs, MiniJava.judgeArgs, hhk.fits harg hparam, ih _ hargs hparams]

lemma judgeCall (hhk : h.AlikeOn On k) {receiver : Ty} (hreceiver : receiver.Among On)
    (receiverLine : Line) (method : String) {args : List (Ty × Line)}
    (hargs : ∀ a ∈ args, a.1.Among On) (line : Line) :
    judgeCall h receiver receiverLine method args line =
        judgeCall k receiver receiverLine method args line ∧
      (judgeCall h receiver receiverLine method args line).1.Among On := by
  unfold MiniJava.judgeCall
  rw [← hhk.settled hreceiver]
  have hsettled := among_settled h hreceiver
  cases hs : h.settled receiver with
  | object c =>
    rw [hs] at hsettled
    simp only [← hhk.findMethod? c method hsettled]
    cases hm : h.findMethod? c method with
    | none => exact ⟨rfl, trivial⟩
    | some m =>
      have hres := hhk.result c method m hsettled hm
      have hparams := hhk.params c method m hsettled hm
      by_cases hsize : m.params.size = args.length
      · simp only [if_pos hsize, ← hhk.settled hres, hhk.judgeArgs method 1 hargs hparams]
        exact ⟨trivial, among_settled h hres⟩
      · simp only [if_neg hsize]
        exact ⟨trivial, trivial⟩
  | _ => exact ⟨rfl, trivial⟩

lemma typeOf (hhk : h.AlikeOn On k) (hctx : ctx.AlikeOn On dtx) (x : String) (line : Line) :
    ctx.typeOf h x line = dtx.typeOf k x line ∧
      ∀ t, ctx.typeOf h x line = .ok t → t.Among On := by
  unfold Context.typeOf
  rw [← hctx.resolve x]
  cases hx : ctx.env.resolve x with
  | none => exact ⟨rfl, fun t ht => by cases ht⟩
  | some s =>
    have hs := hctx.types x s hx
    simp only [← hhk.settled hs]
    refine ⟨trivial, fun t ht => ?_⟩
    cases ht
    exact among_settled h hs

/-- The same type, which is of no other class, and the same diagnostics for every expression;
`check` says so of statements. -/
theorem infer (hhk : h.AlikeOn On k) (hctx : ctx.AlikeOn On dtx) {e : Expr}
    (he : ∀ m ∈ e.mentions, m.Among On) :
    e.infer h ctx = e.infer k dtx ∧ (e.infer h ctx).1.Among On := by
  have hbool : Ty.Among On .boolean := trivial
  have hint : Ty.Among On .int := trivial
  have harray : Ty.Among On .intArray := trivial
  induction e using Expr.induction with
  | unary op e line ih =>
    cases op
    obtain ⟨heq, htype⟩ := ih he
    rw [Expr.infer, Expr.infer, ← heq, hhk.expecting hbool _ htype]
    exact ⟨rfl, hbool⟩
  | binary op l r line ihl ihr =>
    rw [Expr.mentions, List.forall_mem_append] at he
    obtain ⟨hleq, hl⟩ := ihl he.1
    obtain ⟨hreq, hr⟩ := ihr he.2
    have hop := op.among_operand On
    rw [Expr.infer, Expr.infer, ← hleq, ← hreq, hhk.expecting hop _ hl, hhk.expecting hop _ hr]
    exact ⟨rfl, op.among_result On⟩
  | arrayLookup a i line iha ihi =>
    rw [Expr.mentions, List.forall_mem_append] at he
    obtain ⟨haeq, ha⟩ := iha he.1
    obtain ⟨hieq, hi⟩ := ihi he.2
    rw [Expr.infer, Expr.infer, ← haeq, ← hieq, hhk.expecting harray _ ha,
      hhk.expecting hint _ hi]
    exact ⟨rfl, hint⟩
  | arrayLength a line ih =>
    obtain ⟨heq, htype⟩ := ih he
    rw [Expr.infer, Expr.infer, ← heq, hhk.expecting harray _ htype]
    exact ⟨rfl, hint⟩
  | call e m args line ih ihargs =>
    rw [Expr.mentions, Expr.mentionsAll_eq_flatMap, List.forall_mem_append] at he
    obtain ⟨heq, htype⟩ := ih he.1
    have hargs : ∀ a ∈ args, a.infer h ctx = a.infer k dtx ∧ (a.infer h ctx).1.Among On :=
      fun a ha => ihargs a ha fun m hm => he.2 m (List.mem_flatMap.2 ⟨a, ha, hm⟩)
    have hzip : (args.map fun a => ((a.infer k dtx).1, a.line)) =
        args.map fun a => ((a.infer h ctx).1, a.line) :=
      List.map_congr_left fun a ha => by rw [(hargs a ha).1]
    have htold : (args.flatMap fun a => (a.infer k dtx).2) =
        args.flatMap fun a => (a.infer h ctx).2 :=
      List.flatMap_congr fun a ha => by rw [(hargs a ha).1]
    have htypes : ∀ x ∈ args.map fun a => ((a.infer h ctx).1, a.line), x.1.Among On := by
      intro x hx
      obtain ⟨a, ha, rfl⟩ := List.mem_map.1 hx
      exact (hargs a ha).2
    obtain ⟨hcall, hresult⟩ := hhk.judgeCall htype e.line m htypes line
    rw [infer_call, infer_call, ← heq, hzip, htold, ← hcall]
    exact ⟨rfl, hresult⟩
  | newArray n line ih =>
    obtain ⟨heq, htype⟩ := ih he
    rw [Expr.infer, Expr.infer, ← heq, hhk.expecting hint _ htype]
    exact ⟨rfl, harray⟩
  | newObject c line =>
    have hc : On c := he _ List.mem_cons_self
    rw [Expr.infer, Expr.infer, ← hhk.known c hc]
    refine ⟨rfl, ?_⟩
    split
    · exact hc
    · trivial
  | this line =>
    rw [Expr.infer, Expr.infer, ← hctx.owner]
    exact ⟨rfl, hctx.inside⟩
  | identifier x line =>
    obtain ⟨heq, htype⟩ := hhk.typeOf hctx x line
    rw [Expr.infer, Expr.infer, ← heq]
    refine ⟨rfl, ?_⟩
    cases ht : ctx.typeOf h x line with
    | ok t => exact htype t ht
    | error d => trivial
  | intLiteral n line => exact ⟨rfl, hint⟩
  | boolLiteral b line => exact ⟨rfl, hbool⟩

lemma checkAs (hhk : h.AlikeOn On k) (hctx : ctx.AlikeOn On dtx) {t : Ty} (ht : t.Among On)
    {e : Expr} (he : ∀ m ∈ e.mentions, m.Among On) : e.checkAs h ctx t = e.checkAs k dtx t := by
  obtain ⟨heq, htype⟩ := hhk.infer hctx he
  rw [Expr.checkAs, Expr.checkAs, ← heq, hhk.expecting ht _ htype]

lemma checkAsCondition (hhk : h.AlikeOn On k) (hctx : ctx.AlikeOn On dtx) {e : Expr}
    (he : ∀ m ∈ e.mentions, m.Among On) :
    e.checkAsCondition h ctx = e.checkAsCondition k dtx := by
  obtain ⟨heq, htype⟩ := hhk.infer hctx he
  simp only [Expr.checkAsCondition, ← heq, hhk.fits (t := .boolean) htype trivial]

lemma checkAssign (hhk : h.AlikeOn On k) (hctx : ctx.AlikeOn On dtx) (x : String) {e : Expr}
    (he : ∀ m ∈ e.mentions, m.Among On) (line : Line) :
    checkAssign h ctx x e line = checkAssign k dtx x e line := by
  obtain ⟨hvar, hvartype⟩ := hhk.typeOf hctx x line
  obtain ⟨heq, htype⟩ := hhk.infer hctx he
  simp only [MiniJava.checkAssign, ← hvar, ← heq]
  cases ht : ctx.typeOf h x line with
  | error d => rfl
  | ok t => simp only [hhk.fits htype (hvartype t ht)]

lemma checkAssignAt (hhk : h.AlikeOn On k) (hctx : ctx.AlikeOn On dtx) (x : String) {i e : Expr}
    (hi : ∀ m ∈ i.mentions, m.Among On) (he : ∀ m ∈ e.mentions, m.Among On) (line : Line) :
    checkAssignAt h ctx x i e line = checkAssignAt k dtx x i e line := by
  obtain ⟨hvar, hvartype⟩ := hhk.typeOf hctx x line
  simp only [MiniJava.checkAssignAt, ← hvar, hhk.checkAs (t := .int) hctx trivial hi,
    hhk.checkAs (t := .int) hctx trivial he]
  cases ht : ctx.typeOf h x line with
  | error d => rfl
  | ok t => simp only [hhk.fits (t := .intArray) (hvartype t ht) trivial]

theorem check (hhk : h.AlikeOn On k) (hctx : ctx.AlikeOn On dtx) {s : Stmt}
    (hs : ∀ m ∈ s.mentions, m.Among On) : s.check h ctx = s.check k dtx := by
  induction s using Stmt.induction with
  | block body line ih =>
    rw [Stmt.mentions, Stmt.mentionsAll_eq_flatMap] at hs
    simp only [Stmt.check, Stmt.checkAll_eq_flatMap]
    exact List.flatMap_congr fun s hmem =>
      ih s hmem fun m hm => hs m (List.mem_flatMap.2 ⟨s, hmem, hm⟩)
  | branch cond yes no line ihyes ihno =>
    rw [Stmt.mentions, List.forall_mem_append, List.forall_mem_append] at hs
    rw [Stmt.check, Stmt.check, hhk.checkAsCondition hctx hs.1.1, ihyes hs.1.2, ihno hs.2]
  | loop cond body line ih =>
    rw [Stmt.mentions, List.forall_mem_append] at hs
    rw [Stmt.check, Stmt.check, hhk.checkAsCondition hctx hs.1, ih hs.2]
  | print e line => exact hhk.checkAs (t := .int) hctx trivial hs
  | assign x e line => exact hhk.checkAssign hctx x (List.forall_mem_cons.1 hs).2 line
  | assignAt x i e line =>
    rw [Stmt.mentions, List.forall_mem_cons, List.forall_mem_append] at hs
    exact hhk.checkAssignAt hctx x hs.2.1 hs.2.2 line

/-- The methods of one declaration are checked alike. -/
theorem checkMethod (hhk : h.AlikeOn On k) (hctx : ctx.AlikeOn On dtx) {d : MethodDecl}
    (hd : ∀ m ∈ d.mentions, m.Among On) {i : MethodInfo} (hi : i.returnType.Among On) :
    d.checkTypes h i = d.checkTypes k i ∧ d.checkBody h ctx i = d.checkBody k dtx i := by
  simp only [MethodDecl.mentions, List.forall_mem_append] at hd
  obtain ⟨⟨⟨_, hvars⟩, hbody⟩, hresult⟩ := hd
  constructor
  · rw [MethodDecl.checkTypes, MethodDecl.checkTypes, hhk.undeclared hi]
    congr 1
    refine List.flatMap_congr fun v hv => hhk.undeclared ?_ v.line
    exact TypeName.among_of_mentions fun m hm => hvars m (List.mem_flatMap.2 ⟨v, hv, hm⟩)
  · simp only [MethodDecl.checkBody, Stmt.checkAll_eq_flatMap]
    rw [hhk.checkAs hctx hi hresult]
    congr 1
    exact List.flatMap_congr fun s hs =>
      hhk.check hctx fun m hm => hbody m (List.mem_flatMap.2 ⟨s, hs, hm⟩)

end Hierarchy.AlikeOn

/-! ### The same answers throughout -/

/-- The hierarchies give the same answers. -/
structure Hierarchy.Alike (h k : Hierarchy) : Prop where
  known : ∀ c, (h.get? c).isSome = (k.get? c).isSome
  derivesFrom : ∀ a b, h.derivesFrom a b = k.derivesFrom a b
  findMethod? : ∀ c m, h.findMethod? c m = k.findMethod? c m

/-- The contexts give the same answers. -/
structure Context.Alike (ctx dtx : Context) : Prop where
  owner : ctx.owner.name = dtx.owner.name
  resolve : ∀ x, ctx.env.resolve x = dtx.env.resolve x

lemma Context.Alike.refl (ctx : Context) : ctx.Alike ctx := ⟨rfl, fun _ => rfl⟩

lemma Context.Alike.enter {ctx dtx : Context} (hctx : ctx.Alike dtx) (s : Scope Ty) :
    (ctx.enter s).Alike (dtx.enter s) where
  owner := hctx.owner
  resolve x := by
    simp only [Context.enter, Env.resolve_enter, hctx.resolve]

lemma Ty.among_all (t : Ty) : t.Among fun _ => True := by
  cases t <;> trivial

lemma Mention.among_all (m : Mention) : m.Among fun _ => True := by
  cases m <;> trivial

lemma Context.Alike.on {ctx dtx : Context} (hctx : ctx.Alike dtx) :
    ctx.AlikeOn (fun _ => True) dtx :=
  ⟨hctx.owner, trivial, hctx.resolve, fun _ t _ => t.among_all⟩

namespace Hierarchy.Alike

variable {h k : Hierarchy} {ctx dtx : Context}

lemma on (hhk : h.Alike k) : h.AlikeOn (fun _ => True) k :=
  ⟨fun c _ => hhk.known c, fun a b _ _ => hhk.derivesFrom a b, fun c m _ => hhk.findMethod? c m,
    fun _ _ i _ _ => i.returnType.among_all, fun _ _ _ _ _ t _ => t.among_all⟩

lemma undeclared (hhk : h.Alike k) : h.undeclared = k.undeclared := by
  funext t line
  exact hhk.on.undeclared t.among_all line

theorem check (hhk : h.Alike k) (hctx : ctx.Alike dtx) (s : Stmt) :
    s.check h ctx = s.check k dtx :=
  hhk.on.check hctx.on fun m _ => m.among_all

theorem checkMethod (hhk : h.Alike k) (hctx : ctx.Alike dtx) (d : MethodDecl) (m : MethodInfo) :
    d.checkTypes h m = d.checkTypes k m ∧ d.checkBody h ctx m = d.checkBody k dtx m :=
  hhk.on.checkMethod hctx.on (fun m _ => m.among_all) m.returnType.among_all

end Hierarchy.Alike

/-! ### Hierarchies with the same faces -/

/-- What a walk sees of a class: not in which order its members stand. -/
structure ClassFace where
  name : String
  superName : Option String
  field? : String → Option Ty
  method? : String → Option MethodInfo

namespace ClassInfo

def face (c : ClassInfo) : ClassFace := ⟨c.name, c.superName, c.fields.get?, c.methods.get?⟩

/-- The classes have the same face. -/
def SameFace (c d : ClassInfo) : Prop := c.face = d.face

lemma name_eq_of_face {c d : ClassInfo} (hcd : c.face = d.face) : c.name = d.name :=
  congrArg ClassFace.name hcd

lemma findSome?_eq_of_face {α : Type} {l l' : List ClassInfo} (hl : List.Forall₂ SameFace l l')
    (f : ClassFace → Option α) :
    l.findSome? (fun c => f c.face) = l'.findSome? fun c => f c.face :=
  Hierarchy.findSome?_eq_of_forall₂ (fun _ _ hcd => congrArg f hcd) hl

end ClassInfo

namespace Hierarchy

def face? (h : Hierarchy) (name : String) : Option ClassFace := (h.get? name).map ClassInfo.face

variable {h k : Hierarchy} {c d : ClassInfo}

lemma rel_get?_of_face (hhk : h.face? = k.face?) (name : String) :
    Option.Rel ClassInfo.SameFace (h.get? name) (k.get? name) := by
  have hname : (h.get? name).map ClassInfo.face = (k.get? name).map ClassInfo.face :=
    congrFun hhk name
  cases hc : h.get? name <;> cases hd : k.get? name <;> simp_all [ClassInfo.SameFace]

lemma parallel_of_face (hhk : h.face? = k.face?) : Parallel ClassInfo.SameFace h k where
  name _ _ hcd := ClassInfo.name_eq_of_face hcd
  superclass? c d hcd := by
    have hsuper : c.superName = d.superName := congrArg ClassFace.superName hcd
    rw [superclass?, superclass?, hsuper]
    cases d.superName with
    | none => exact .none
    | some s => exact rel_get?_of_face hhk s

lemma face_ancestors (hhk : h.face? = k.face?) (hcd : c.face = d.face) :
    List.Forall₂ ClassInfo.SameFace (h.ancestors c) (k.ancestors d) :=
  (parallel_of_face hhk).ancestors hcd

lemma face_cons_ancestors (hhk : h.face? = k.face?) (hcd : c.face = d.face) :
    List.Forall₂ ClassInfo.SameFace (c :: h.ancestors c) (d :: k.ancestors d) :=
  (parallel_of_face hhk).cons_ancestors hcd

lemma onCycle_eq_of_face (hhk : h.face? = k.face?) (hcd : c.face = d.face) :
    h.onCycle c = k.onCycle d :=
  (parallel_of_face hhk).onCycle hcd

/-- The same faces give the same answers. -/
theorem alike_of_face (hhk : h.face? = k.face?) : h.Alike k := by
  have hparallel := parallel_of_face hhk
  refine ⟨fun name => ?_, fun a b => ?_, fun name m => ?_⟩
  · have hname := congrArg Option.isSome (congrFun hhk name)
    rwa [face?, face?, Option.isSome_map, Option.isSome_map] at hname
  · exact hparallel.derivesFrom (rel_get?_of_face hhk a) b
  · refine hparallel.findMethod? (rel_get?_of_face hhk name) fun c d hcd => ?_
    exact congrFun (congrArg ClassFace.method? hcd) m

end Hierarchy

end MiniJava
