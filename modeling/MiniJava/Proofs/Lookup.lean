import Mathlib.Data.List.Nodup
import MiniJava.Proofs.Collecting
import MiniJava.Proofs.Walks

/-!
# Names and their declarations

The hierarchy of a program against the program's own text: which names it knows, which class is
above which, and that a search up the ancestors finds the member of the nearest class that declares
it.
-/

namespace MiniJava

open Relation

def MethodInfo.sig (m : MethodInfo) : Signature := ⟨m.paramTypes, m.returnType⟩

lemma MethodInfo.agreesWith_iff (m n : MethodInfo) : m.agreesWith n = true ↔ m.sig = n.sig := by
  simp [agreesWith, sig]

lemma MethodInfo.get?_scope (m : MethodInfo) (x : String) :
    m.scope.get? x = (m.locals.get? x).or (m.params.get? x) := by
  rw [scope, Scope.get?_mk, List.findSome?_singleton]

lemma MethodDecl.sig_info {d : MethodDecl} (hd : d.DistinctNames) : d.info.1.sig = d.sig := by
  have hformals := (List.nodup_append.1 (distinctNames_iff.1 hd)).1
  have hparams : d.info.1.paramTypes = d.formals.map (·.ty) := by
    rw [MethodInfo.paramTypes, Bindings.values, entries_params hformals, List.map_map]
    rfl
  rw [MethodInfo.sig, hparams]
  rfl

namespace Program

variable {p : Program}

lemma get?_hierarchy (p : Program) (name : String) :
    p.hierarchy.get? name = p.hierarchy.own.get? name := by
  have hmk : p.hierarchy = ⟨p.hierarchy.own, []⟩ := by
    rw [← outer_hierarchy p]
  rw [hmk, Scope.get?_mk]
  simp

/-- The classes known by their names: the first of each name that is not the main class's. -/
def liveClasses (p : Program) : List ClassDecl := firsts [p.main.name] ClassDecl.name p.classes

lemma liveClasses_of_nodup (hp : p.classNames.Nodup) : p.liveClasses = p.classes :=
  firsts_of_nodup hp

/-- What a name stands for, whatever names are declared twice. -/
theorem get?_hierarchy_iff_live (p : Program) (name : String) (c : ClassInfo) :
    p.hierarchy.get? name = some c ↔
      (name = p.main.name ∧ c = p.main.info) ∨
        ∃ d ∈ p.liveClasses, d.name = name ∧ d.info.1 = c := by
  rw [get?_hierarchy, Bindings.get?_eq_some_iff, entries_hierarchy_firsts]
  simp [liveClasses, eq_comm]

/-- The classes that the hierarchy knows. -/
theorem get?_hierarchy_iff (hp : p.DistinctNames) (name : String) (c : ClassInfo) :
    p.hierarchy.get? name = some c ↔
      (name = p.main.name ∧ c = p.main.info) ∨
        ∃ d ∈ p.classes, d.name = name ∧ d.info.1 = c := by
  rw [get?_hierarchy_iff_live, liveClasses_of_nodup hp.classes]

/-- Whatever the classes are called, the name of the main class stands for the main class. -/
lemma get?_hierarchy_main (p : Program) : p.hierarchy.get? p.main.name = some p.main.info :=
  (get?_hierarchy_iff_live p _ _).2 (.inl ⟨rfl, rfl⟩)

lemma get?_hierarchy_live {d : ClassDecl} (hd : d ∈ p.liveClasses) :
    p.hierarchy.get? d.name = some d.info.1 :=
  (get?_hierarchy_iff_live p _ _).2 (.inr ⟨d, hd, rfl, rfl⟩)

lemma get?_hierarchy_class (hp : p.DistinctNames) {d : ClassDecl} (hd : d ∈ p.classes) :
    p.hierarchy.get? d.name = some d.info.1 :=
  (get?_hierarchy_iff hp _ _).2 (.inr ⟨d, hd, rfl, rfl⟩)

/-- A name is known if any class has it. -/
lemma isSome_get?_hierarchy (p : Program) (name : String) :
    (p.hierarchy.get? name).isSome = true ↔ name ∈ p.classNames := by
  have hfirsts : name ∈ [p.main.name] ++ p.liveClasses.map ClassDecl.name ↔
      name ∈ [p.main.name] ++ p.classes.map ClassDecl.name := mem_append_firsts_iff _ _ _
  rw [get?_hierarchy, Bindings.get?_isSome_iff, Bindings.names, entries_hierarchy_firsts]
  simpa [classNames, liveClasses] using hfirsts

lemma exists_get?_hierarchy {name : String} (hname : name ∈ p.classNames) :
    ∃ c, p.hierarchy.get? name = some c :=
  Option.isSome_iff_exists.1 ((p.isSome_get?_hierarchy name).2 hname)

lemma hierarchy_keyed (p : Program) : p.hierarchy.Keyed := by
  intro name c hc
  rcases (get?_hierarchy_iff_live p name c).1 hc with ⟨rfl, rfl⟩ | ⟨d, _, rfl, rfl⟩
  · rfl
  · rfl

lemma mem_classNames_of_extends {a b : String} (hab : p.Extends a b) : a ∈ p.classNames := by
  obtain ⟨c, hc, rfl, _⟩ := hab
  exact List.mem_cons_of_mem _ (List.mem_map_of_mem hc)

/-- A class known by its name extends another. -/
def LiveExtends (p : Program) (a b : String) : Prop :=
  ∃ c ∈ p.liveClasses, c.name = a ∧ c.superName = some b

lemma liveExtends_of_nodup (hp : p.classNames.Nodup) : p.LiveExtends = p.Extends := by
  funext a b
  rw [LiveExtends, liveClasses_of_nodup hp, Extends]

/-- The superclass link of the hierarchy is that of the classes known by their names. -/
lemma extends_hierarchy_iff_live {a b : String} {c d : ClassInfo}
    (hc : p.hierarchy.get? a = some c) (hd : p.hierarchy.get? b = some d) :
    p.hierarchy.Extends c d ↔ p.LiveExtends a b := by
  have hbd : ∀ s, p.hierarchy.get? s = some d ↔ s = b := by
    intro s
    constructor
    · intro hs
      rw [← p.hierarchy_keyed s d hs, p.hierarchy_keyed b d hd]
    · rintro rfl
      exact hd
  have hlink : p.hierarchy.Extends c d ↔ c.superName = some b := by
    rw [Hierarchy.Extends, Hierarchy.superclass?, Option.bind_eq_some_iff]
    simp [hbd]
  rw [hlink]
  constructor
  · intro hs
    rcases (get?_hierarchy_iff_live p a c).1 hc with ⟨_, rfl⟩ | ⟨e, he, hea, rfl⟩
    · cases hs
    · exact ⟨e, he, hea, hs⟩
  · rintro ⟨e, he, rfl, hs⟩
    rw [get?_hierarchy_live he] at hc
    cases hc
    exact hs

/-- The superclass link of the hierarchy is the one in the text. -/
lemma extends_hierarchy_iff (hp : p.DistinctNames) {a b : String} {c d : ClassInfo}
    (hc : p.hierarchy.get? a = some c) (hd : p.hierarchy.get? b = some d) :
    p.hierarchy.Extends c d ↔ p.Extends a b := by
  rw [extends_hierarchy_iff_live hc hd, liveExtends_of_nodup hp.classes]

/-- Chains of the hierarchy are chains of the classes known by their names. -/
theorem transGen_hierarchy_iff_live {a b : String} {c d : ClassInfo}
    (hc : p.hierarchy.get? a = some c) (hd : p.hierarchy.get? b = some d) :
    TransGen p.hierarchy.Extends c d ↔ TransGen p.LiveExtends a b := by
  constructor
  · intro hcd
    induction hcd generalizing b with
    | single hcd => exact .single ((extends_hierarchy_iff_live hc hd).1 hcd)
    | tail hce hed ih =>
      have he := p.hierarchy_keyed.bound_of_transGen hce
      exact (ih he).tail ((extends_hierarchy_iff_live he hd).1 hed)
  · intro hab
    induction hab using TransGen.head_induction_on generalizing c with
    | single hab => exact .single ((extends_hierarchy_iff_live hc hd).2 hab)
    | head has hsb ih =>
      -- a class in the middle of the chain extends another and so is known
      obtain ⟨_, ⟨e, he, rfl, _⟩, _⟩ := TransGen.head'_iff.1 hsb
      have hs := get?_hierarchy_live he
      exact TransGen.head ((extends_hierarchy_iff_live hc hs).2 has) (ih hs)

/-- A class and its ancestors are all that is known up the chain. -/
lemma mem_cons_ancestors_iff {c : ClassInfo} (hc : p.hierarchy.Bound c) (o : ClassInfo) :
    o ∈ c :: p.hierarchy.ancestors c ↔
      p.hierarchy.Bound o ∧ ReflTransGen p.LiveExtends c.name o.name := by
  have hk := p.hierarchy_keyed
  rw [List.mem_cons, Hierarchy.mem_ancestors_iff hk hc, reflTransGen_iff_eq_or_transGen]
  constructor
  · rintro (rfl | ⟨hco, _⟩)
    · exact ⟨hc, .inl rfl⟩
    · have ho := hk.bound_of_transGen hco
      exact ⟨ho, .inr ((transGen_hierarchy_iff_live hc ho).1 hco)⟩
  · rintro ⟨ho, hco⟩
    by_cases hname : o.name = c.name
    · exact .inl (ho.eq_of_name_eq hc hname)
    · exact .inr ⟨(transGen_hierarchy_iff_live hc ho).2 (hco.resolve_left hname), hname⟩

/-- The subclass test decides the closure of `extends` on the classes known by their names. -/
theorem derivesFrom_hierarchy_iff_live (a : String) {d : ClassDecl} (hd : d ∈ p.liveClasses) :
    p.hierarchy.derivesFrom a d.name = true ↔ ReflTransGen p.LiveExtends a d.name := by
  have hget := get?_hierarchy_live hd
  rw [Hierarchy.derivesFrom_iff p.hierarchy_keyed, reflTransGen_iff_eq_or_transGen]
  refine or_congr eq_comm ?_
  constructor
  · rintro ⟨c, e, hc, hce, he⟩
    have hbound := p.hierarchy_keyed.bound_of_transGen hce
    rw [Hierarchy.Bound, he] at hbound
    exact (transGen_hierarchy_iff_live hc hbound).1 hce
  · intro hab
    obtain ⟨_, ⟨e, he, rfl, _⟩, _⟩ := TransGen.head'_iff.1 hab
    have hc := get?_hierarchy_live he
    exact ⟨_, _, hc, (transGen_hierarchy_iff_live hc hget).2 hab, rfl⟩

/-- Names are distinct, superclasses are declared, and no class is above itself. -/
structure Regular (p : Program) : Prop where
  distinct : p.DistinctNames
  closed : ∀ a b, p.Extends a b → b ∈ p.classNames
  acyclic : ∀ a, ¬ TransGen p.Extends a a

lemma WellTyped.regular (hp : p.WellTyped) : p.Regular :=
  ⟨hp.distinct, hp.superclass_declared, hp.acyclic⟩

/-- Chains of the hierarchy are chains of the text. -/
theorem transGen_hierarchy_iff (hp : p.DistinctNames)
    (hclosed : ∀ a b, p.Extends a b → b ∈ p.classNames) {a : String} {c : ClassInfo}
    (hc : p.hierarchy.get? a = some c) (b : String) :
    TransGen p.Extends a b ↔
      ∃ d, p.hierarchy.get? b = some d ∧ TransGen p.hierarchy.Extends c d := by
  rw [← liveExtends_of_nodup hp.classes] at hclosed ⊢
  constructor
  · intro hab
    obtain ⟨s, _, hsb⟩ := TransGen.tail'_iff.1 hab
    obtain ⟨d, hd⟩ := exists_get?_hierarchy (hclosed _ _ hsb)
    exact ⟨d, hd, (transGen_hierarchy_iff_live hc hd).2 hab⟩
  · rintro ⟨d, hd, hcd⟩
    exact (transGen_hierarchy_iff_live hc hd).1 hcd

/-- The subclass test decides the closure of `extends`. -/
theorem derivesFrom_hierarchy_iff (hp : p.DistinctNames)
    (hclosed : ∀ a b, p.Extends a b → b ∈ p.classNames) (a b : String) :
    p.hierarchy.derivesFrom a b = true ↔ ReflTransGen p.Extends a b := by
  rw [Hierarchy.derivesFrom_iff p.hierarchy_keyed, reflTransGen_iff_eq_or_transGen]
  refine or_congr eq_comm ?_
  constructor
  · rintro ⟨c, d, hc, hcd, rfl⟩
    have hd := p.hierarchy_keyed.bound_of_transGen hcd
    exact (transGen_hierarchy_iff hp hclosed hc d.name).2 ⟨d, hd, hcd⟩
  · intro hab
    obtain ⟨s, has, _⟩ := TransGen.head'_iff.1 hab
    obtain ⟨c, hc⟩ := exists_get?_hierarchy (mem_classNames_of_extends has)
    obtain ⟨d, hd, hcd⟩ := (transGen_hierarchy_iff hp hclosed hc b).1 hab
    exact ⟨c, d, hc, hcd, p.hierarchy_keyed b d hd⟩

lemma WellTyped.derivesFrom_iff (hp : p.WellTyped) (a b : String) :
    p.hierarchy.derivesFrom a b = true ↔ ReflTransGen p.Extends a b :=
  derivesFrom_hierarchy_iff hp.distinct hp.superclass_declared a b

namespace Regular

lemma acyclic_hierarchy (hr : p.Regular) : p.hierarchy.Acyclic := by
  intro c hc hcycle
  exact hr.acyclic c.name
    ((transGen_hierarchy_iff hr.distinct hr.closed hc c.name).2 ⟨c, hc, hcycle⟩)

lemma extends_iff_of_superclass? (hr : p.Regular) {c : ClassInfo} (hc : p.hierarchy.Bound c)
    (b : String) : p.Extends c.name b ↔ ∃ s, p.hierarchy.Extends c s ∧ s.name = b := by
  constructor
  · intro hb
    obtain ⟨s, hs⟩ := exists_get?_hierarchy (hr.closed _ _ hb)
    exact ⟨s, (extends_hierarchy_iff hr.distinct hc hs).2 hb, p.hierarchy_keyed b s hs⟩
  · rintro ⟨s, hs, rfl⟩
    have hbound := p.hierarchy_keyed.bound_of_extends hs
    exact (extends_hierarchy_iff hr.distinct hc hbound).1 hs

/-- A search up the ancestors finds what the nearest class has, whatever kind of member it is. -/
theorem nearest_iff (hr : p.Regular) {α : Type} {Has : String → α → Prop}
    {f : ClassInfo → Option α}
    (hf : ∀ a c, p.hierarchy.get? a = some c → ∀ x, Has a x ↔ f c = some x) {a : String}
    {c : ClassInfo} (hc : p.hierarchy.get? a = some c) (x : α) :
    p.Nearest Has a x ↔ (c :: p.hierarchy.ancestors c).findSome? f = some x := by
  have hk := p.hierarchy_keyed
  have ha := hr.acyclic_hierarchy
  have hname : c.name = a := hk a c hc
  subst hname
  have hown : ∀ c, p.hierarchy.Bound c → ∀ y, f c = some y → p.Nearest Has c.name y := by
    intro c hc y hy
    exact .own ((hf c.name c hc y).2 hy)
  refine ha.induction hk (P := fun c => p.Nearest Has c.name x ↔
    (c :: p.hierarchy.ancestors c).findSome? f = some x) ?_ ?_ hc
  · intro c hc hroot
    rw [Hierarchy.ancestors_eq_nil hroot, List.findSome?_singleton]
    constructor
    · intro hx
      cases hx with
      | own hx => exact (hf c.name c hc x).1 hx
      | inherited _ hd _ =>
        obtain ⟨s, hs, _⟩ := (hr.extends_iff_of_superclass? hc _).1 hd
        exact absurd (hroot.symm.trans hs) (by simp)
    · exact hown c hc x
  · intro c s hc hs ih
    rw [Hierarchy.ancestors_eq_cons hk ha hc hs, List.findSome?_cons]
    cases hfc : f c with
    | some y =>
      constructor
      · intro hx
        cases hx with
        | own hx => exact hfc.symm.trans ((hf c.name c hc x).1 hx)
        | inherited hnone _ _ => exact absurd ((hf c.name c hc y).2 hfc) (hnone y)
      · intro hxy
        exact hown c hc x (hfc.trans hxy)
    | none =>
      rw [← ih]
      constructor
      · intro hx
        cases hx with
        | own hx =>
          have hcx := (hf c.name c hc x).1 hx
          rw [hfc] at hcx
          cases hcx
        | inherited _ hd hx =>
          obtain ⟨t, ht, rfl⟩ := (hr.extends_iff_of_superclass? hc _).1 hd
          exact hs.unique ht ▸ hx
      · intro hx
        refine .inherited ?_ ((hr.extends_iff_of_superclass? hc _).2 ⟨s, hs, rfl⟩) hx
        intro y hy
        have hcy := (hf c.name c hc y).1 hy
        rw [hfc] at hcy
        cases hcy

end Regular

/-- The fields of a class in the hierarchy are those in the text. -/
lemma hasField_iff (hp : p.DistinctNames) {a : String} {c : ClassInfo}
    (hc : p.hierarchy.get? a = some c) (x : String) (t : Ty) :
    p.HasField x a t ↔ c.fields.get? x = some t := by
  rw [Bindings.get?_eq_some_iff]
  have hnames : (p.main.name :: p.classes.map (·.name)).Nodup := hp.classes
  rcases (get?_hierarchy_iff hp a c).1 hc with ⟨rfl, rfl⟩ | ⟨d, hd, rfl, rfl⟩
  · constructor
    · rintro ⟨e, he, hea, _⟩
      exact absurd (hea ▸ List.mem_map_of_mem he) (List.nodup_cons.1 hnames).1
    · intro hmem
      cases hmem
  · rw [ClassDecl.entries_fields (hp.members d hd).fields]
    constructor
    · rintro ⟨e, he, hed, f, hf, rfl, rfl⟩
      have heq : e = d :=
        List.inj_on_of_nodup_map (List.nodup_cons.1 hnames).2 he hd hed
      subst heq
      exact List.mem_map_of_mem hf
    · intro hmem
      obtain ⟨f, hf, heq⟩ := List.mem_map.1 hmem
      cases heq
      exact ⟨d, hd, rfl, f, hf, rfl, rfl⟩

/-- The methods of a class in the hierarchy are those in the text. -/
lemma hasMethod_iff (hp : p.DistinctNames) {a : String} {c : ClassInfo}
    (hc : p.hierarchy.get? a = some c) (m : String) (s : Signature) :
    p.HasMethod m a s ↔ (c.methods.get? m).map (·.sig) = some s := by
  rw [Option.map_eq_some_iff]
  simp only [Bindings.get?_eq_some_iff]
  have hnames : (p.main.name :: p.classes.map (·.name)).Nodup := hp.classes
  rcases (get?_hierarchy_iff hp a c).1 hc with ⟨rfl, rfl⟩ | ⟨d, hd, rfl, rfl⟩
  · constructor
    · intro hm
      generalize ha : p.main.name = a at hm
      cases hm with
      | main => exact ⟨_, List.mem_singleton.2 rfl, rfl⟩
      | declared he _ =>
        exact absurd (ha ▸ List.mem_map_of_mem he) (List.nodup_cons.1 hnames).1
    · rintro ⟨i, hi, rfl⟩
      cases List.mem_singleton.1 hi
      exact .main
  · rw [ClassDecl.entries_methods (hp.members d hd).methods]
    constructor
    · intro hm
      generalize ha : d.name = a at hm
      cases hm with
      | main => exact absurd (ha ▸ List.mem_map_of_mem hd) (List.nodup_cons.1 hnames).1
      | @declared e n he hn =>
        have heq : e = d :=
          List.inj_on_of_nodup_map (List.nodup_cons.1 hnames).2 he hd ha.symm
        subst heq
        exact ⟨n.info.1, List.mem_map_of_mem hn,
          MethodDecl.sig_info ((hp.members e he).methodVars n hn)⟩
    · rintro ⟨i, hi, rfl⟩
      obtain ⟨n, hn, heq⟩ := List.mem_map.1 hi
      cases heq
      rw [MethodDecl.sig_info ((hp.members d hd).methodVars n hn)]
      exact .declared hd hn

/-- Method look-up finds the signature of the nearest declaration. -/
theorem findMethod?_iff (hr : p.Regular) {a : String} (ha : a ∈ p.classNames) (m : String)
    (s : Signature) :
    (p.hierarchy.findMethod? a m).map (·.sig) = some s ↔ p.Nearest (p.HasMethod m) a s := by
  obtain ⟨c, hc⟩ := exists_get?_hierarchy ha
  have hnear := hr.nearest_iff (fun a c hc s => hasMethod_iff hr.distinct hc m s) hc s
  rw [hnear, Hierarchy.findMethod?_eq, hc, Option.bind_some, List.map_findSome?]
  rfl

end Program

end MiniJava
