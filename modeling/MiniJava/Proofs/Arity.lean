import MiniJava.Proofs.Mentions
import MiniJava.Proofs.Places

/-!
# A method with another number of parameters

A method of a well-typed program is exchanged for one that takes more arguments or fewer, and that
does the same otherwise. The program is still well typed exactly if nothing else depends on the
number: no class above or below has a method of that name, and there is no call that it answers.
-/

namespace MiniJava
open Relation

/-- A call of a method on an object of class `receiver`. -/
structure Call where
  receiver : String
  method : String
deriving DecidableEq, Repr

/-- Of what is not an object nothing is called. -/
def Ty.calls (method : String) : Ty → List Call
  | .object c => [⟨c, method⟩]
  | _ => []

mutual

/-- The calls in an expression. -/
def Expr.calls (h : Hierarchy) (ctx : Context) : Expr → List Call
  | .unary _ operand _ => operand.calls h ctx
  | .binary _ lhs rhs _ => lhs.calls h ctx ++ rhs.calls h ctx
  | .arrayLookup array index _ => array.calls h ctx ++ index.calls h ctx
  | .arrayLength array _ => array.calls h ctx
  | .call receiver method args _ =>
    (receiver.infer h ctx).1.calls method ++ receiver.calls h ctx ++ Expr.callsAll h ctx args
  | .newArray size _ => size.calls h ctx
  | .newObject _ _ | .this _ | .identifier _ _ | .intLiteral _ _ | .boolLiteral _ _ => []
termination_by structural e => e

def Expr.callsAll (h : Hierarchy) (ctx : Context) : List Expr → List Call
  | [] => []
  | e :: es => e.calls h ctx ++ Expr.callsAll h ctx es
termination_by structural es => es

end

@[simp] lemma Expr.callsAll_eq_flatMap (h : Hierarchy) (ctx : Context) (es : List Expr) :
    Expr.callsAll h ctx es = es.flatMap (Expr.calls h ctx) := by
  induction es with
  | nil => rfl
  | cons e es ih => simp [Expr.callsAll, ih]

mutual

def Stmt.calls (h : Hierarchy) (ctx : Context) : Stmt → List Call
  | .block body _ => Stmt.callsAll h ctx body
  | .branch cond yes no _ => cond.calls h ctx ++ yes.calls h ctx ++ no.calls h ctx
  | .loop cond body _ => cond.calls h ctx ++ body.calls h ctx
  | .print value _ => value.calls h ctx
  | .assign _ value _ => value.calls h ctx
  | .assignAt _ index value _ => index.calls h ctx ++ value.calls h ctx
termination_by structural s => s

def Stmt.callsAll (h : Hierarchy) (ctx : Context) : List Stmt → List Call
  | [] => []
  | s :: ss => s.calls h ctx ++ Stmt.callsAll h ctx ss
termination_by structural ss => ss

end

@[simp] lemma Stmt.callsAll_eq_flatMap (h : Hierarchy) (ctx : Context) (ss : List Stmt) :
    Stmt.callsAll h ctx ss = ss.flatMap (Stmt.calls h ctx) := by
  induction ss with
  | nil => rfl
  | cons s ss ih => simp [Stmt.callsAll, ih]

def MethodDecl.calls (h : Hierarchy) (ctx : Context) (m : MethodDecl) : List Call :=
  m.body.flatMap (Stmt.calls h ctx) ++ m.result.calls h ctx

/-- The calls in a program without repeated names, each with the class that its receiver is found to
have. -/
def Program.calls (p : Program) : List Call :=
  p.main.body.calls p.hierarchy p.mainContext ++
    p.classes.flatMap fun c => c.methods.flatMap fun m => m.calls p.hierarchy (p.methodContext c m)

namespace MethodPlace

variable {p : Program} (place : MethodPlace p)

/-- None of the calls is of a method of that name on an object of the class or of a class below. -/
def Spares (calls : List Call) : Prop :=
  ∀ x ∈ calls, x.method = place.method.name →
    p.hierarchy.derivesFrom x.receiver place.owner.name = false

def Uncalled : Prop := place.Spares p.calls

instance : Decidable place.Uncalled := inferInstanceAs (Decidable (∀ x ∈ p.calls, _))

@[simp] lemma spares_nil : place.Spares [] := by simp [Spares]

@[simp] lemma spares_append (xs ys : List Call) :
    place.Spares (xs ++ ys) ↔ place.Spares xs ∧ place.Spares ys :=
  List.forall_mem_append

@[simp] lemma spares_flatMap {α : Type} (f : α → List Call) (l : List α) :
    place.Spares (l.flatMap f) ↔ ∀ a ∈ l, place.Spares (f a) := by
  simp only [Spares, List.mem_flatMap, forall_exists_index, and_imp]
  exact ⟨fun hall a ha x hx => hall x a ha hx, fun hall x a ha hx => hall a ha x hx⟩

end MethodPlace

/-! ### Which method answers -/

lemma Program.Nearest.of_above {p q : Program} {α : Type} {Has Has' : String → α → Prop}
    (hlinks : q.Extends = p.Extends) {c : String} {x : α} (hx : p.Nearest Has c x)
    (hsame : ∀ d, ReflTransGen p.Extends c d → ∀ y, Has' d y ↔ Has d y) : q.Nearest Has' c x := by
  induction hx with
  | own hx => exact .own ((hsame _ .refl _).2 hx)
  | inherited hnone hd _ ih =>
    refine .inherited (fun y hy => hnone y ((hsame _ .refl y).1 hy)) (hlinks ▸ hd) ?_
    exact ih fun e he => hsame e (he.head hd)

lemma Program.extends_rightUnique {p : Program} (hp : p.DistinctNames) :
    Relator.RightUnique p.Extends := by
  rintro a b c ⟨d, hd, rfl, hb⟩ ⟨e, he, hed, hc⟩
  have heq : e = d := List.inj_on_of_nodup_map (List.nodup_cons.1 hp.classes).2 he hd hed
  subst heq
  exact Option.some.inj (hb.symm.trans hc)

lemma Program.Regular.nearest_unique {p : Program} (hr : p.Regular) {c n : String}
    (hc : c ∈ p.classNames) {s t : Signature} (hs : p.Nearest (p.HasMethod n) c s)
    (ht : p.Nearest (p.HasMethod n) c t) : s = t := by
  have hfound := ((findMethod?_iff hr hc n s).2 hs).symm.trans ((findMethod?_iff hr hc n t).2 ht)
  exact Option.some.inj hfound

namespace MethodPlace

variable {p : Program} {place : MethodPlace p} {m : MethodDecl}

/-- Who does not derive from the class does not notice the exchange. -/
lemma nearest_replace_iff (hp : p.WellTyped) (hname : m.name = place.method.name) {n c : String}
    (hc : n = place.method.name → p.hierarchy.derivesFrom c place.owner.name = false)
    (s : Signature) :
    (place.replace m).Nearest ((place.replace m).HasMethod n) c s ↔
      p.Nearest (p.HasMethod n) c s := by
  have hlinks := place.extends_replace m
  have hsame : ∀ d, ReflTransGen p.Extends c d → ∀ t,
      (place.replace m).HasMethod n d t ↔ p.HasMethod n d t := by
    intro d hcd t
    have hother : ¬ (n = place.method.name ∧ d = place.owner.name) := by
      rintro ⟨hn, rfl⟩
      have hderives := (hp.derivesFrom_iff _ _).2 hcd
      rw [hc hn] at hderives
      cases hderives
    rw [hasMethod_replace hp.distinct hname]
    constructor
    · rintro (⟨hn, hd, _⟩ | ⟨_, ht⟩)
      · exact absurd ⟨hn, hd⟩ hother
      · exact ht
    · intro ht
      exact .inr ⟨hother, ht⟩
  constructor
  · intro hs
    exact hs.of_above hlinks.symm fun d hd t => (hsame d (hlinks ▸ hd) t).symm
  · intro hs
    exact hs.of_above hlinks hsame

/-- Who derives from the class is answered by the new method, if no related class has one. -/
lemma sig_of_nearest_replace (hp : p.WellTyped) (hsole : place.Sole)
    (hname : m.name = place.method.name) {c : String}
    (hc : ReflTransGen p.Extends c place.owner.name) {s : Signature}
    (hs : (place.replace m).Nearest ((place.replace m).HasMethod place.method.name) c s) :
    s = m.sig := by
  obtain ⟨d, hcd, hd⟩ := hs.exists_above
  rw [extends_replace] at hcd
  rcases (hasMethod_replace hp.distinct hname _ d s).1 hd with ⟨_, _, rfl⟩ | ⟨hne, hd⟩
  · rfl
  · have hne : d ≠ place.owner.name := fun heq => hne ⟨rfl, heq⟩
    have hunique := Program.extends_rightUnique hp.distinct
    have hrelated := ReflTransGen.total_of_right_unique hunique hcd hc
    simp only [reflTransGen_iff_eq_or_transGen] at hrelated
    have hproper := hrelated.imp (·.resolve_left hne.symm) (·.resolve_left hne)
    exact absurd hd (hsole.not_hasMethod hp hproper)

lemma sig_of_nearest (hp : p.WellTyped) (hsole : place.Sole) {c : String}
    (hc : ReflTransGen p.Extends c place.owner.name) {s : Signature}
    (hs : p.Nearest (p.HasMethod place.method.name) c s) : s = place.method.sig := by
  apply sig_of_nearest_replace hp hsole rfl hc
  rw [place.replace_method]
  exact hs

/-! ### Code that calls or does not call the method -/

lemma assignable_replace_iff (m : MethodDecl) (s t : Ty) :
    (place.replace m).Assignable s t ↔ p.Assignable s t := by
  constructor
  · rintro (_ | hab)
    · exact .same _
    · exact .subclass (extends_replace m ▸ hab)
  · rintro (_ | hab)
    · exact .same _
    · exact .subclass ((extends_replace m).symm ▸ hab)

section Code

variable {ctx : Context} {self : String} {vars vars' : String → Ty → Prop}

/-- With the other method `e` still has type `t` if it does not call the method, and else none. -/
def Keeps (place : MethodPlace p) (m : MethodDecl) (ctx : Context) (self : String)
    (vars' : String → Ty → Prop) (e : Expr) (t : Ty) : Prop :=
  ∀ t', (place.replace m).HasType self vars' e t' ↔
    t' = t ∧ place.Spares (e.calls p.hierarchy ctx)

lemma Keeps.hasType_iff {e : Expr} {t : Ty} (he : place.Keeps m ctx self vars' e t) :
    (place.replace m).HasType self vars' e t ↔ place.Spares (e.calls p.hierarchy ctx) := by
  rw [he t]
  exact and_iff_right rfl

lemma forall₂_hasType_replace_iff {args : List Expr} {ts : List Ty}
    (hargs : List.Forall₂ (place.Keeps m ctx self vars') args ts) (ts' : List Ty) :
    List.Forall₂ ((place.replace m).HasType self vars') args ts' ↔
      ts' = ts ∧ ∀ a ∈ args, place.Spares (a.calls p.hierarchy ctx) := by
  induction hargs generalizing ts' with
  | nil => simp [List.forall₂_nil_left_iff]
  | @cons a t args ts ha _ ih =>
    rw [List.forall₂_cons_left_iff, List.forall_mem_cons]
    constructor
    · rintro ⟨t', ts', ha', hargs', rfl⟩
      obtain ⟨rfl, hspares⟩ := (ha t').1 ha'
      obtain ⟨rfl, hrest⟩ := (ih ts').1 hargs'
      exact ⟨rfl, hspares, hrest⟩
    · rintro ⟨rfl, hspares, hrest⟩
      exact ⟨t, ts, (ha t).2 ⟨rfl, hspares⟩, (ih ts).2 ⟨rfl, hrest⟩, rfl⟩

variable (hp : p.WellTyped) (hsole : place.Sole) (hname : m.name = place.method.name)
  (harity : m.formals.length ≠ place.method.formals.length) (hctx : p.Sees ctx self vars)
include hp hsole hname harity hctx

/-- A call of the method is refused, since it has as many arguments as the old method took. Any
other call is answered as before. -/
lemma Keeps.call {e : Expr} {c n : String} {args : List Expr} {ts : List Ty} {s : Signature}
    (he : p.HasType self vars e (.object c)) (hm : p.Nearest (p.HasMethod n) c s)
    (hsub : List.Forall₂ p.Assignable ts s.params)
    (hkeeps : place.Keeps m ctx self vars' e (.object c))
    (hargs : List.Forall₂ (place.Keeps m ctx self vars') args ts) (line : Line) :
    place.Keeps m ctx self vars' (.call e n args line) s.result := by
  intro t'
  have hknown := he.known hctx hp.signaturesKnown
  have hinfer := (Program.infer_eq_iff hp.regular hp.signaturesKnown hctx e _).2 he
  have hcalls : place.Spares ((Expr.call e n args line).calls p.hierarchy ctx) ↔
      (n = place.method.name → p.hierarchy.derivesFrom c place.owner.name = false) ∧
        place.Spares (e.calls p.hierarchy ctx) ∧
        ∀ a ∈ args, place.Spares (a.calls p.hierarchy ctx) := by
    rw [Expr.calls, hinfer, Expr.callsAll_eq_flatMap, spares_append, spares_append, spares_flatMap,
      and_assoc]
    simp [Spares, Ty.calls]
  have hassign : List.Forall₂ (place.replace m).Assignable ts s.params :=
    hsub.imp fun a b hab => (assignable_replace_iff m a b).2 hab
  rw [hcalls]
  constructor
  · intro hq
    cases hq with
    | @call _ c' _ _ ts' s' _ he' hm' hargs' hsub' =>
      obtain ⟨hc', hspares⟩ := (hkeeps _).1 he'
      cases hc'
      obtain ⟨rfl, hspared⟩ := (forall₂_hasType_replace_iff hargs ts').1 hargs'
      have hother : n = place.method.name →
          p.hierarchy.derivesFrom c place.owner.name = false := by
        rintro rfl
        rw [← Bool.not_eq_true, hp.derivesFrom_iff]
        intro hderives
        -- the arguments are as many as the old method took, and the new one would answer
        have hold := sig_of_nearest hp hsole hderives hm
        have hnew := sig_of_nearest_replace hp hsole hname hderives hm'
        have hlength := hsub.length_eq.symm.trans hsub'.length_eq
        rw [hold, hnew] at hlength
        exact harity (by simpa [MethodDecl.sig] using hlength.symm)
      have hm' := (nearest_replace_iff hp hname hother s').1 hm'
      obtain rfl : s' = s := hp.regular.nearest_unique hknown.2 hm' hm
      exact ⟨rfl, hother, hspares, hspared⟩
  · rintro ⟨rfl, hother, hspares, hspared⟩
    exact .call line ((hkeeps _).2 ⟨rfl, hspares⟩) ((nearest_replace_iff hp hname hother s).2 hm)
      ((forall₂_hasType_replace_iff hargs ts).2 ⟨rfl, hspared⟩) hassign

/-- One expression, in a scope where the names that it mentions mean what they meant. -/
theorem keeps_of_hasType {e : Expr} {t : Ty} (he : p.HasType self vars e t)
    (hvars : ∀ x line, Mention.ofVar x line ∈ e.mentions → ∀ t, vars' x t ↔ vars x t) :
    place.Keeps m ctx self vars' e t := by
  induction e using Expr.induction generalizing t with
  | unary op e line ih =>
    obtain ⟨rfl, hop⟩ := Program.hasType_unary_iff.1 he
    intro t'
    rw [Program.hasType_unary_iff, (ih hop hvars).hasType_iff, Expr.calls]
  | binary op l r line ihl ihr =>
    obtain ⟨rfl, hl, hr⟩ := Program.hasType_binary_iff.1 he
    rw [Expr.mentions] at hvars
    have hleft := ihl hl fun x l hx => hvars x l (List.mem_append_left _ hx)
    have hright := ihr hr fun x l hx => hvars x l (List.mem_append_right _ hx)
    intro t'
    rw [Program.hasType_binary_iff, hleft.hasType_iff, hright.hasType_iff, Expr.calls,
      spares_append]
  | arrayLookup a i line iha ihi =>
    obtain ⟨rfl, ha, hi⟩ := Program.hasType_arrayLookup_iff.1 he
    rw [Expr.mentions] at hvars
    have harray := iha ha fun x l hx => hvars x l (List.mem_append_left _ hx)
    have hindex := ihi hi fun x l hx => hvars x l (List.mem_append_right _ hx)
    intro t'
    rw [Program.hasType_arrayLookup_iff, harray.hasType_iff, hindex.hasType_iff, Expr.calls,
      spares_append]
  | arrayLength a line ih =>
    obtain ⟨rfl, ha⟩ := Program.hasType_arrayLength_iff.1 he
    intro t'
    rw [Program.hasType_arrayLength_iff, (ih ha hvars).hasType_iff, Expr.calls]
  | call e n args line ihe ihargs =>
    cases he with
    | @call _ c _ _ ts s _ he hm hargs hsub =>
      rw [Expr.mentions, Expr.mentionsAll_eq_flatMap] at hvars
      have hkeeps := ihe he fun x l hx => hvars x l (List.mem_append_left _ hx)
      have hall : List.Forall₂ (place.Keeps m ctx self vars') args ts := by
        apply forall₂_imp_of_mem hargs
        intro a ha t hat
        apply ihargs a ha hat
        intro x l hx
        exact hvars x l (List.mem_append_right _ (List.mem_flatMap_of_mem ha hx))
      exact Keeps.call hp hsole hname harity hctx he hm hsub hkeeps hall line
  | newArray n line ih =>
    obtain ⟨rfl, hn⟩ := Program.hasType_newArray_iff.1 he
    intro t'
    rw [Program.hasType_newArray_iff, (ih hn hvars).hasType_iff, Expr.calls]
  | newObject c line =>
    obtain ⟨rfl, hc⟩ := Program.hasType_newObject_iff.1 he
    intro t'
    rw [Program.hasType_newObject_iff, classNames_replace, Expr.calls]
    simp [hc]
  | this line =>
    intro t'
    rw [Program.hasType_this_iff.1 he, Program.hasType_this_iff, Expr.calls]
    simp
  | identifier x line =>
    have hx := Program.hasType_identifier_iff.1 he
    intro t'
    rw [Program.hasType_identifier_iff, hvars x line (by simp [Expr.mentions]) t', Expr.calls]
    constructor
    · intro hx'
      have heq := ((hctx.resolve x t').2 hx').symm.trans ((hctx.resolve x t).2 hx)
      exact ⟨Option.some.inj heq, place.spares_nil⟩
    · rintro ⟨rfl, _⟩
      exact hx
  | intLiteral n line =>
    intro t'
    rw [Program.hasType_intLiteral_iff.1 he, Program.hasType_intLiteral_iff, Expr.calls]
    simp
  | boolLiteral b line =>
    intro t'
    rw [Program.hasType_boolLiteral_iff.1 he, Program.hasType_boolLiteral_iff, Expr.calls]
    simp

theorem stmtTyped_replace_iff {s : Stmt} (hs : p.StmtTyped self vars s)
    (hvars : ∀ x line, Mention.ofVar x line ∈ s.mentions → ∀ t, vars' x t ↔ vars x t) :
    (place.replace m).StmtTyped self vars' s ↔ place.Spares (s.calls p.hierarchy ctx) := by
  have hexpr : ∀ {e t}, p.HasType self vars e t →
      (∀ x line, Mention.ofVar x line ∈ e.mentions → ∀ t, vars' x t ↔ vars x t) →
        place.Keeps m ctx self vars' e t :=
    fun he => keeps_of_hasType hp hsole hname harity hctx he
  induction s using Stmt.induction with
  | block body line ih =>
    rw [Stmt.mentions, Stmt.mentionsAll_eq_flatMap] at hvars
    rw [Stmt.calls, Stmt.callsAll_eq_flatMap, spares_flatMap]
    cases hs with
    | block _ hbody =>
      have hall := fun s hs => ih s hs (hbody s hs) fun x l hx =>
        hvars x l (List.mem_flatMap_of_mem hs hx)
      constructor
      · intro hq s hs
        cases hq with
        | block _ hbody' => exact (hall s hs).1 (hbody' s hs)
      · intro hspares
        exact .block line fun s hs => (hall s hs).2 (hspares s hs)
  | branch cond yes no line ihyes ihno =>
    rw [Stmt.mentions] at hvars
    rw [Stmt.calls, spares_append, spares_append]
    cases hs with
    | branch _ hc hyes hno =>
      have hcond := hexpr hc fun x l hx => hvars x l (by simp [hx])
      have hyes := ihyes hyes fun x l hx => hvars x l (by simp [hx])
      have hno := ihno hno fun x l hx => hvars x l (by simp [hx])
      constructor
      · intro hq
        cases hq with
        | branch _ hc' hyes' hno' =>
          exact ⟨⟨hcond.hasType_iff.1 hc', hyes.1 hyes'⟩, hno.1 hno'⟩
      · rintro ⟨⟨hc', hyes'⟩, hno'⟩
        exact .branch line (hcond.hasType_iff.2 hc') (hyes.2 hyes') (hno.2 hno')
  | loop cond body line ih =>
    rw [Stmt.mentions] at hvars
    rw [Stmt.calls, spares_append]
    cases hs with
    | loop _ hc hbody =>
      have hcond := hexpr hc fun x l hx => hvars x l (by simp [hx])
      have hbody := ih hbody fun x l hx => hvars x l (by simp [hx])
      constructor
      · intro hq
        cases hq with
        | loop _ hc' hbody' => exact ⟨hcond.hasType_iff.1 hc', hbody.1 hbody'⟩
      · rintro ⟨hc', hbody'⟩
        exact .loop line (hcond.hasType_iff.2 hc') (hbody.2 hbody')
  | print e line =>
    cases hs with
    | print _ he =>
      have hvalue := hexpr he hvars
      constructor
      · intro hq
        cases hq with
        | print _ he' => exact hvalue.hasType_iff.1 he'
      · intro hspares
        exact .print line (hvalue.hasType_iff.2 hspares)
  | assign x e line =>
    rw [Stmt.mentions] at hvars
    cases hs with
    | assign _ hx he hsub =>
      have hvalue := hexpr he fun x l hx => hvars x l (by simp [hx])
      have htarget := hvars x line (by simp)
      constructor
      · intro hq
        cases hq with
        | assign _ _ he' _ => exact ((hvalue _).1 he').2
      · intro hspares
        exact .assign line ((htarget _).2 hx) (hvalue.hasType_iff.2 hspares)
          ((assignable_replace_iff m _ _).2 hsub)
  | assignAt x i e line =>
    rw [Stmt.mentions] at hvars
    rw [Stmt.calls, spares_append]
    cases hs with
    | assignAt _ hx hi he =>
      have hindex := hexpr hi fun x l hx => hvars x l (by simp [hx])
      have hvalue := hexpr he fun x l hx => hvars x l (by simp [hx])
      have htarget := hvars x line (by simp)
      constructor
      · intro hq
        cases hq with
        | assignAt _ _ hi' he' => exact ⟨hindex.hasType_iff.1 hi', hvalue.hasType_iff.1 he'⟩
      · rintro ⟨hi', he'⟩
        exact .assignAt line ((htarget _).2 hx) (hindex.hasType_iff.2 hi')
          (hvalue.hasType_iff.2 he')

omit hctx in
lemma methodTyped_replace_iff {c c' : ClassDecl} {n n' : MethodDecl} (hc : c ∈ p.classes)
    (hn : n ∈ c.methods) (howner : c'.name = c.name) (hbody : n'.body = n.body)
    (hresult : n'.result = n.result) (hreturn : n'.returnType = n.returnType)
    (hvars : ∀ x line, Mention.ofVar x line ∈ n.mentions →
      ∀ t, (place.replace m).MethodVar c' n' x t ↔ p.MethodVar c n x t) :
    (place.replace m).MethodTyped c' n' ↔
      place.Spares (n.calls p.hierarchy (p.methodContext c n)) := by
  have hctx := Program.sees_method hp.regular hp.field_declared hc hn (hp.var_declared c hc n hn)
  obtain ⟨htyped, t, ht, hsub⟩ := hp.method_typed c hc n hn
  have hstmts : ∀ s ∈ n.body,
      (place.replace m).StmtTyped c.name ((place.replace m).MethodVar c' n') s ↔
        place.Spares (s.calls p.hierarchy (p.methodContext c n)) := by
    intro s hs
    apply stmtTyped_replace_iff hp hsole hname harity hctx (htyped s hs)
    intro x l hx
    exact hvars x l
      (List.mem_append_left _ (List.mem_append_right _ (List.mem_flatMap_of_mem hs hx)))
  have hkeeps : place.Keeps m (p.methodContext c n) c.name ((place.replace m).MethodVar c' n')
      n.result t :=
    keeps_of_hasType hp hsole hname harity hctx ht fun x l hx =>
      hvars x l (List.mem_append_right _ hx)
  rw [MethodDecl.calls, spares_append, spares_flatMap]
  constructor
  · rintro ⟨hbody', t', ht', _⟩
    rw [hbody, howner] at hbody'
    rw [hresult, howner] at ht'
    exact ⟨fun s hs => (hstmts s hs).1 (hbody' s hs), ((hkeeps t').1 ht').2⟩
  · rintro ⟨hspares, hspared⟩
    refine ⟨?_, t, ?_, ?_⟩
    · rw [hbody, howner]
      exact fun s hs => (hstmts s hs).2 (hspares s hs)
    · rw [hresult, howner]
      exact hkeeps.hasType_iff.2 hspared
    · rw [hreturn]
      exact (assignable_replace_iff m _ _).2 hsub

end Code

end MethodPlace

/-! ### The whole program -/

/-- `n` does the same as `m`, but takes another number of arguments. -/
structure MethodDecl.Resized (m n : MethodDecl) : Prop where
  name : n.name = m.name
  returnType : n.returnType = m.returnType
  body : n.body = m.body
  result : n.result = m.result
  arity : n.formals.length ≠ m.formals.length
  vars : ∀ x line, Mention.ofVar x line ∈ m.mentions →
    ∀ t, (∃ v ∈ n.vars, v.name = x ∧ v.ty = t) ↔ ∃ v ∈ m.vars, v.name = x ∧ v.ty = t

namespace MethodPlace

variable {p : Program} {place : MethodPlace p} {m : MethodDecl}

/-- Overriding agrees only if there is none. -/
lemma overridesSame_replace_iff (hp : p.WellTyped) (hname : m.name = place.method.name)
    (hsig : m.sig ≠ place.method.sig) : (place.replace m).OverridesSame ↔ place.Sole := by
  refine ⟨?_, fun hsole => overridesSame_replace hp hsole hname⟩
  intro hover c hc hne hrelated hmem
  rw [Program.OverridesSame, place.extends_replace] at hover
  obtain ⟨i, hi, hin⟩ := List.mem_map.1 hmem
  have hs : p.HasMethod place.method.name c.name i.sig := hin ▸ .declared hc hi
  have hrelated : TransGen p.Extends c.name place.owner.name ∨
      TransGen p.Extends place.owner.name c.name := by
    simp only [hp.derivesFrom_iff, reflTransGen_iff_eq_or_transGen] at hrelated
    exact hrelated.imp (·.resolve_left hne.symm) (·.resolve_left hne)
  have hother := (hasMethod_replace hp.distinct hname _ _ _).2 (.inr ⟨fun hand => hne hand.2, hs⟩)
  have hown := (place.hasMethod_replace hp.distinct hname place.method.name place.owner.name
    m.sig).2 (.inl ⟨rfl, rfl, rfl⟩)
  have heq : i.sig = m.sig := by
    rcases hrelated with hbelow | habove
    · exact hover _ _ hbelow _ _ _ hother hown
    · exact (hover _ _ habove _ _ _ hown hother).symm
  exact hsig (heq.symm.trans (sig_of_related hp hrelated hs).1)

lemma hasField_replace (m : MethodDecl) : (place.replace m).HasField = p.HasField := by
  funext x a t
  simp only [Program.HasField, replace, ClassPlace.mem_replace, place.classPlace.mem_classes,
    or_and_right, exists_or, exists_eq_left]
  rfl

/-- Inside a method names mean what they meant, if it has the same variables of these names. -/
lemma methodVar_replace_iff (m : MethodDecl) {c c' : ClassDecl} {n n' : MethodDecl}
    (howner : c'.name = c.name) {x : String}
    (hvars : ∀ t, (∃ v ∈ n'.vars, v.name = x ∧ v.ty = t) ↔ ∃ v ∈ n.vars, v.name = x ∧ v.ty = t)
    (t : Ty) : (place.replace m).MethodVar c' n' x t ↔ p.MethodVar c n x t := by
  have hnone : (∀ v ∈ n'.vars, v.name ≠ x) ↔ ∀ v ∈ n.vars, v.name ≠ x := by
    constructor
    · intro hall v hv hx
      obtain ⟨w, hw, hwx, _⟩ := (hvars v.ty).2 ⟨v, hv, hx, rfl⟩
      exact hall w hw hwx
    · intro hall v hv hx
      obtain ⟨w, hw, hwx, _⟩ := (hvars v.ty).1 ⟨v, hv, hx, rfl⟩
      exact hall w hw hwx
  have hfield : (place.replace m).Nearest (p.HasField x) c.name t ↔
      p.Nearest (p.HasField x) c.name t :=
    ⟨fun hs => hs.of_above (place.extends_replace m).symm fun _ _ _ => Iff.rfl,
      fun hs => hs.of_above (place.extends_replace m) fun _ _ _ => Iff.rfl⟩
  rw [Program.MethodVar, Program.MethodVar, hvars, hnone, howner, hasField_replace, hfield]

/-- Class by class and method by method the same stands there, or the new method for the old one. -/
lemma forall₂_classes (place : MethodPlace p) (m : MethodDecl) :
    List.Forall₂ (fun c c' => c'.name = c.name ∧ c'.fields = c.fields ∧
        List.Forall₂ (fun n n' => n' = n ∨ n = place.method ∧ n' = m) c.methods c'.methods)
      p.classes (place.replace m).classes := by
  have hmethods : List.Forall₂ (fun n n' => n' = n ∨ n = place.method ∧ n' = m)
      place.owner.methods (place.ownerReplacing m).methods := by
    rw [place.methods_eq]
    exact forall₂_replace (fun _ => .inl rfl) _ _ (.inr ⟨rfl, rfl⟩)
  rw [place.classes_eq]
  exact forall₂_replace (fun _ => ⟨rfl, rfl, List.forall₂_same.2 fun _ _ => .inl rfl⟩) _ _
    ⟨rfl, rfl, hmethods⟩

lemma exists_of_mem_replace {c' : ClassDecl} (hc' : c' ∈ (place.replace m).classes)
    {n' : MethodDecl} (hn' : n' ∈ c'.methods) :
    ∃ c ∈ p.classes, c'.name = c.name ∧ ∃ n ∈ c.methods, n' = n ∨ n = place.method ∧ n' = m := by
  obtain ⟨c, hc, hname, _, hmethods⟩ := exists_mem_of_forall₂ (place.forall₂_classes m).flip hc'
  obtain ⟨n, hn, hsame⟩ := exists_mem_of_forall₂ hmethods.flip hn'
  exact ⟨c, hc, hname, n, hn, hsame⟩

/-- The exchange is noticed by who overrides the method or is overridden by it, and by who calls
it. -/
theorem wellTyped_replace_iff (hp : p.WellTyped) (hm : place.method.Resized m)
    (hnames : m.DistinctNames) (hdecl : ∀ v ∈ m.vars, p.Declared v.ty) :
    (place.replace m).WellTyped ↔ place.Sole ∧ place.Uncalled := by
  have hsig : m.sig ≠ place.method.sig := by
    intro heq
    have hlength := congrArg (fun s => s.params.length) heq
    simp only [MethodDecl.sig, List.length_map] at hlength
    exact hm.arity hlength
  have hdeclared := fun t =>
    (Program.declared_iff_of_classNames (place.classNames_replace m) t).2
  have hclasses := place.forall₂_classes m
  -- the main statement and each method are typed as before or not at all, whatever the others are
  have hmain : place.Sole → ((place.replace m).StmtTyped p.main.name (place.replace m).MainVar
      p.main.body ↔ place.Spares (p.main.body.calls p.hierarchy p.mainContext)) := fun hsole =>
    stmtTyped_replace_iff hp hsole hm.name hm.arity p.sees_main hp.main_typed
      fun _ _ _ _ => Iff.rfl
  have hmethod : place.Sole → ∀ c ∈ p.classes, ∀ n ∈ c.methods, ∀ c' n',
      c'.name = c.name → (n' = n ∨ n = place.method ∧ n' = m) →
      ((place.replace m).MethodTyped c' n' ↔
        place.Spares (n.calls p.hierarchy (p.methodContext c n))) := by
    rintro hsole c hc n hn c' n' howner (rfl | ⟨rfl, rfl⟩)
    · exact methodTyped_replace_iff hp hsole hm.name hm.arity hc hn howner rfl rfl rfl
        fun x l _ => methodVar_replace_iff m howner fun _ => Iff.rfl
    · exact methodTyped_replace_iff hp hsole hm.name hm.arity hc hn howner hm.body hm.result
        hm.returnType fun x l hx => methodVar_replace_iff n' howner (hm.vars x l hx)
  constructor
  · intro hq
    have hsole := (overridesSame_replace_iff hp hm.name hsig).1 hq.override_same
    refine ⟨hsole, ?_⟩
    rw [Uncalled, Program.calls, spares_append, spares_flatMap]
    refine ⟨(hmain hsole).1 hq.main_typed, fun c hc => ?_⟩
    rw [spares_flatMap]
    intro n hn
    obtain ⟨c', hc', howner, _, hmethods⟩ := exists_mem_of_forall₂ hclasses hc
    obtain ⟨n', hn', hsame⟩ := exists_mem_of_forall₂ hmethods hn
    exact (hmethod hsole c hc n hn c' n' howner hsame).1 (hq.method_typed c' hc' n' hn')
  · rintro ⟨hsole, hcalls⟩
    rw [Uncalled, Program.calls, spares_append, spares_flatMap] at hcalls
    have hr := regular_replace hp.regular hm.name hnames
    refine ⟨hr.distinct, hr.closed, hr.acyclic, ?_, ?_, ?_,
      overridesSame_replace hp hsole hm.name, (hmain hsole).2 hcalls.1, ?_⟩
    · intro c' hc' f hf
      obtain ⟨c, hc, _, hfields, _⟩ := exists_mem_of_forall₂ hclasses.flip hc'
      exact hdeclared _ (hp.field_declared c hc f (hfields ▸ hf))
    · intro c' hc' n' hn' v hv
      obtain ⟨c, hc, _, n, hn, rfl | ⟨rfl, rfl⟩⟩ := exists_of_mem_replace hc' hn'
      · exact hdeclared _ (hp.var_declared c hc _ hn v hv)
      · exact hdeclared _ (hdecl v hv)
    · intro c' hc' n' hn'
      obtain ⟨c, hc, _, n, hn, rfl | ⟨rfl, rfl⟩⟩ := exists_of_mem_replace hc' hn'
      · exact hdeclared _ (hp.result_declared c hc _ hn)
      · rw [hm.returnType]
        exact hdeclared _ (hp.result_declared c hc _ hn)
    · intro c' hc' n' hn'
      obtain ⟨c, hc, howner, n, hn, hsame⟩ := exists_of_mem_replace hc' hn'
      have hspares := hcalls.2 c hc
      rw [spares_flatMap] at hspares
      exact (hmethod hsole c hc n hn c' n' howner hsame).2 (hspares n hn)

end MethodPlace

end MiniJava
