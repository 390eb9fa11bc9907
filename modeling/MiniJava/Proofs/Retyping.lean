import MiniJava.Proofs.Blurring
import MiniJava.Proofs.Places

/-!
# Programs with less known types

In a well-typed program some declared types are exchanged for a class that nobody declares. A
variable of such a type and a call of such a method count as failed, so the code has no findings;
all that is told is which types are undeclared.
-/

namespace MiniJava
open Relation

def ClassDecl.undeclaredTypes (h : Hierarchy) (c : ClassDecl) : List Diagnostic :=
  c.fields.flatMap (·.undeclared h) ++ c.methods.flatMap fun m => m.checkTypes h m.info.1

/-- The written types that name no class of `h`, in the order in which they are looked up. -/
def Program.undeclaredTypes (h : Hierarchy) (p : Program) : List Diagnostic :=
  p.classes.flatMap (·.undeclaredTypes h)

/-! ### Declarations with less known types -/

/-- The type is the same, or it is the class `g`. -/
def Ty.Retyped (g : String) (s t : Ty) : Prop := t = s ∨ t = .object g

structure VarDecl.Retyped (g : String) (v w : VarDecl) : Prop where
  name : w.name = v.name
  ty : v.ty.Retyped g w.ty

structure MethodDecl.Retyped (g : String) (m n : MethodDecl) : Prop where
  name : n.name = m.name
  formals : List.Forall₂ (VarDecl.Retyped g) m.formals n.formals
  locals : List.Forall₂ (VarDecl.Retyped g) m.locals n.locals
  returnType : m.returnType.ty.Retyped g n.returnType.ty
  body : n.body = m.body
  result : n.result = m.result

structure ClassDecl.Retyped (g : String) (c d : ClassDecl) : Prop where
  name : d.name = c.name
  superName : d.superName = c.superName
  fields : List.Forall₂ (VarDecl.Retyped g) c.fields d.fields
  methods : List.Forall₂ (MethodDecl.Retyped g) c.methods d.methods

/-- In the second program some declared types are exchanged for the class `g`. -/
structure Program.Retyped (g : String) (p q : Program) : Prop where
  main : q.main = p.main
  classes : List.Forall₂ (ClassDecl.Retyped g) p.classes q.classes

lemma map_eq_of_forall₂ {α β : Type} {R : α → α → Prop} {f : α → β} (hf : ∀ a b, R a b → f b = f a)
    {l l' : List α} (hl : List.Forall₂ R l l') : l'.map f = l.map f := by
  induction hl with
  | nil => rfl
  | cons hab _ ih => rw [List.map_cons, List.map_cons, hf _ _ hab, ih]

lemma VarDecl.names_retyped {g : String} {vs ws : List VarDecl}
    (hvs : List.Forall₂ (VarDecl.Retyped g) vs ws) :
    ws.map VarDecl.name = vs.map VarDecl.name :=
  map_eq_of_forall₂ (fun _ _ hvw => hvw.name) hvs

namespace MethodDecl.Retyped

variable {g : String} {m n : MethodDecl}

lemma vars (hmn : m.Retyped g n) : List.Forall₂ (VarDecl.Retyped g) m.vars n.vars :=
  List.rel_append hmn.formals hmn.locals

lemma distinctNames (hmn : m.Retyped g n) (hm : m.DistinctNames) : n.DistinctNames := by
  rw [MethodDecl.DistinctNames, VarDecl.names_retyped hmn.vars]
  exact hm

lemma params (hmn : m.Retyped g n) : List.Forall₂ (Ty.Retyped g) m.sig.params n.sig.params := by
  rw [MethodDecl.sig, MethodDecl.sig, List.forall₂_map_left_iff, List.forall₂_map_right_iff]
  exact hmn.formals.imp fun _ _ hvw => hvw.ty

end MethodDecl.Retyped

lemma ClassDecl.Retyped.distinctNames {g : String} {c d : ClassDecl} (hcd : c.Retyped g d)
    (hc : c.DistinctNames) : d.DistinctNames where
  fields := by
    rw [VarDecl.names_retyped hcd.fields]
    exact hc.fields
  methods := by
    rw [map_eq_of_forall₂ (fun _ _ hmn => hmn.name) hcd.methods]
    exact hc.methods
  methodVars n hn := by
    obtain ⟨m, hm, hmn⟩ := exists_mem_of_forall₂ hcd.methods.flip hn
    exact hmn.distinctNames (hc.methodVars m hm)

namespace Program

variable {g : String} {p q : Program}

namespace Retyped

section Declarations

variable (hpq : p.Retyped g q)
include hpq

lemma classNames : q.classNames = p.classNames := by
  rw [Program.classNames, Program.classNames, hpq.main,
    map_eq_of_forall₂ (fun _ _ hcd => hcd.name) hpq.classes]

lemma extends_eq : q.Extends = p.Extends := by
  have hlinks := map_eq_of_forall₂ (f := fun c : ClassDecl => (c.name, c.superName))
    (fun c d hcd => Prod.ext hcd.name hcd.superName) hpq.classes
  have hmem : ∀ (r : Program) a b,
      r.Extends a b ↔ (a, some b) ∈ r.classes.map fun c => (c.name, c.superName) := by
    simp [Program.Extends]
  funext a b
  rw [eq_iff_iff, hmem, hmem, hlinks]

lemma regular (hp : p.Regular) : q.Regular where
  distinct := by
    refine ⟨hpq.classNames ▸ hp.distinct.classes, ?_⟩
    intro d hd
    obtain ⟨c, hc, hcd⟩ := exists_mem_of_forall₂ hpq.classes.flip hd
    exact hcd.distinctNames (hp.distinct.members c hc)
  closed := by
    rw [hpq.extends_eq, hpq.classNames]
    exact hp.closed
  acyclic := by
    rw [hpq.extends_eq]
    exact hp.acyclic

lemma hasField {x c : String} {s : Ty} (hs : p.HasField x c s) :
    ∃ t, q.HasField x c t ∧ s.Retyped g t := by
  obtain ⟨a, ha, rfl, v, hv, rfl, rfl⟩ := hs
  obtain ⟨b, hb, hab⟩ := exists_mem_of_forall₂ hpq.classes ha
  obtain ⟨w, hw, hvw⟩ := exists_mem_of_forall₂ hab.fields hv
  exact ⟨w.ty, ⟨b, hb, hab.name, w, hw, hvw.name, rfl⟩, hvw.ty⟩

lemma exists_hasField {x c : String} {t : Ty} (ht : q.HasField x c t) : ∃ s, p.HasField x c s := by
  obtain ⟨b, hb, rfl, w, hw, rfl, rfl⟩ := ht
  obtain ⟨a, ha, hab⟩ := exists_mem_of_forall₂ hpq.classes.flip hb
  obtain ⟨v, hv, hvw⟩ := exists_mem_of_forall₂ hab.fields.flip hw
  exact ⟨v.ty, a, ha, hab.name.symm, v, hv, hvw.name.symm, rfl⟩

lemma hasMethod {n c : String} {s : Signature} (hs : p.HasMethod n c s) :
    ∃ t, q.HasMethod n c t ∧ List.Forall₂ (Ty.Retyped g) s.params t.params ∧
      s.result.Retyped g t.result := by
  cases hs with
  | main =>
    rw [← hpq.main]
    exact ⟨_, .main, .cons (.inl rfl) .nil, .inl rfl⟩
  | @declared a m ha hm =>
    obtain ⟨b, hb, hab⟩ := exists_mem_of_forall₂ hpq.classes ha
    obtain ⟨i, hi, hmi⟩ := exists_mem_of_forall₂ hab.methods hm
    rw [← hab.name, ← hmi.name]
    exact ⟨i.sig, .declared hb hi, hmi.params, hmi.returnType⟩

lemma exists_hasMethod {n c : String} {t : Signature} (ht : q.HasMethod n c t) :
    ∃ s, p.HasMethod n c s := by
  cases ht with
  | main =>
    rw [hpq.main]
    exact ⟨_, .main⟩
  | @declared b i hb hi =>
    obtain ⟨a, ha, hab⟩ := exists_mem_of_forall₂ hpq.classes.flip hb
    obtain ⟨m, hm, hmi⟩ := exists_mem_of_forall₂ hab.methods.flip hi
    rw [hab.name, hmi.name]
    exact ⟨m.sig, .declared ha hm⟩

lemma seesBlurred_main : q.mainContext.SeesBlurred q.hierarchy p.main.name p.MainVar where
  owner := congrArg MainClass.name hpq.main
  resolve x s hs := by
    have hvar : q.MainVar x s := by
      rw [MainVar, hpq.main]
      exact hs
    exact ⟨s, (q.sees_main.resolve x s).2 hvar, q.hierarchy.blurs_refl s⟩

end Declarations

section Contexts

variable (hpq : p.Retyped g q) (hp : p.Regular) (hg : g ∉ p.classNames)
include hpq hg

lemma blurs {s t : Ty} (hst : s.Retyped g t) : q.hierarchy.Blurs s t := by
  rcases hst with rfl | rfl
  · exact q.hierarchy.blurs_refl _
  · apply Hierarchy.blurs_undeclared
    rw [← Option.not_isSome_iff_eq_none, isSome_get?_hierarchy, hpq.classNames]
    exact hg

include hp

lemma blurredIn : p.BlurredIn q.hierarchy where
  known c hc := by
    rw [isSome_get?_hierarchy, hpq.classNames]
    exact hc
  derives a b hab := by
    have hq := hpq.regular hp
    rw [derivesFrom_hierarchy_iff hq.distinct hq.closed, hpq.extends_eq]
    exact hab
  method c m s hc hs := by
    obtain ⟨t, ht, hparams, hresult⟩ := hs.related hpq.extends_eq
      (fun _ _ hs => hpq.hasMethod hs) (fun _ _ ht => hpq.exists_hasMethod ht)
    rw [isSome_get?_hierarchy] at hc
    obtain ⟨i, hi, rfl⟩ := Option.map_eq_some_iff.1 ((findMethod?_iff (hpq.regular hp) hc m t).2 ht)
    exact ⟨i, hi, hparams.imp fun _ _ hst => hpq.blurs hg hst, hpq.blurs hg hresult⟩

/-- A name means the same variable of the method, or a field of the same class. -/
lemma seesBlurred_method {c d : ClassDecl} (hd : d ∈ q.classes) (hcd : c.Retyped g d)
    {m n : MethodDecl} (hn : n ∈ d.methods) (hmn : m.Retyped g n) :
    (q.methodContext d n).SeesBlurred q.hierarchy c.name (p.MethodVar c m) where
  owner := hcd.name
  resolve x s hs := by
    obtain ⟨t, ht, hst⟩ : ∃ t, q.MethodVar d n x t ∧ s.Retyped g t := by
      rcases hs with ⟨v, hv, rfl, rfl⟩ | ⟨hnone, hfield⟩
      · obtain ⟨w, hw, hvw⟩ := exists_mem_of_forall₂ hmn.vars hv
        exact ⟨w.ty, .inl ⟨w, hw, hvw.name, rfl⟩, hvw.ty⟩
      · obtain ⟨t, ht, hst⟩ := hfield.related hpq.extends_eq
          (fun _ _ hs => hpq.hasField hs) (fun _ _ ht => hpq.exists_hasField ht)
        refine ⟨t, .inr ⟨?_, hcd.name ▸ ht⟩, hst⟩
        intro w hw
        obtain ⟨v, hv, hvw⟩ := exists_mem_of_forall₂ hmn.vars.flip hw
        rw [hvw.name]
        exact hnone v hv
    exact ⟨t, (resolve_methodContext_iff (hpq.regular hp) hd hn x t).2 ht, hpq.blurs hg hst⟩

end Contexts

end Retyped

/-! ### All that is found -/

/-- Of an accepted program with less known types nothing is told but the types that are undeclared,
unless a method no longer agrees with one that it overrides. -/
theorem Retyped.findings_eq (hpq : p.Retyped g q) (hp : p.WellTyped) (hg : g ∉ p.classNames)
    (hover : q.OverridesSame) :
    q.findings = q.undeclaredTypes q.hierarchy := by
  have hr := hp.regular
  have hq := hpq.regular hr
  have hblur := hpq.blurredIn hr hg
  have hcollect := (collect_eq_nil_iff q).2 hq.distinct
  have hmain : q.main.body.check q.hierarchy q.mainContext = [] := by
    rw [hpq.main]
    exact hp.main_typed.check_blurred hblur hpq.seesBlurred_main
  have hsupers := (checkSuper_eq_nil_iff_regular hq.distinct).2 hq
  have hoverrides := (overrideMismatches_eq_nil_iff_agree hq.distinct).2
    ((overridesAgree_iff hq).2 hover)
  have hbodies : ∀ d ∈ q.classes, ∀ n ∈ d.methods,
      n.checkBody q.hierarchy (q.methodContext d n) n.info.1 = [] := by
    intro d hd n hn
    obtain ⟨c, hc, hcd⟩ := exists_mem_of_forall₂ hpq.classes.flip hd
    obtain ⟨m, hm, hmn⟩ := exists_mem_of_forall₂ hcd.methods.flip hn
    have hctx := hpq.seesBlurred_method hr hg hd hcd hn hmn
    obtain ⟨hbody, t, ht, hsub⟩ := hp.method_typed c hc m hm
    have hresult := ht.infersBlurred hblur hctx
    rw [MethodDecl.checkBody, hmn.body, hmn.result, List.append_eq_nil_iff,
      Stmt.checkAll_eq_flatMap, List.flatMap_eq_nil_iff, Expr.checkAs, expecting_eq_nil_iff]
    exact ⟨fun s hs => (hbody s hs).check_blurred hblur hctx, hresult.1,
      hblur.fits hsub hresult.2 (hpq.blurs hg hmn.returnType)⟩
  rw [findings, hcollect, hmain, undeclaredTypes]
  apply List.flatMap_congr
  intro d hd
  have hmethods : d.methods.flatMap (fun n => n.checkTypes q.hierarchy n.info.1 ++
        n.checkBody q.hierarchy (q.methodContext d n) n.info.1) =
      d.methods.flatMap fun n => n.checkTypes q.hierarchy n.info.1 := by
    apply List.flatMap_congr
    intro n hn
    rw [hbodies d hd n hn, List.append_nil]
  rw [freshFindings_of_distinct hq.distinct hd, hsupers d hd, hoverrides d hd, hmethods,
    List.nil_append, List.append_nil, ClassDecl.undeclaredTypes]

/-- Declared types stay declared. -/
lemma Retyped.undeclaredTypes_eq_nil (hpq : p.Retyped g q) (hp : p.WellTyped) :
    p.undeclaredTypes q.hierarchy = [] := by
  have hq := (hpq.regular hp.regular).distinct
  have hdecl := fun t => (declared_iff_of_classNames hpq.classNames t).2
  simp only [undeclaredTypes, ClassDecl.undeclaredTypes, List.flatMap_eq_nil_iff,
    List.append_eq_nil_iff]
  refine fun c hc => ⟨fun v hv => ?_, fun m hm => ?_⟩
  · exact (undeclared_eq_nil_iff v.ty v.line).2 (hdecl _ (hp.field_declared c hc v hv))
  · exact (checkTypes_eq_nil_iff m).2 ⟨hdecl _ (hp.result_declared c hc m hm),
      fun v hv => hdecl _ (hp.var_declared c hc m hm v hv)⟩

end Program

end MiniJava
