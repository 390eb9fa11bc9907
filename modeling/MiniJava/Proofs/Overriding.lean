import MiniJava.Proofs.Lookup

/-!
# Overriding

Each method is compared with the nearest one above it only. Where no circle exists this is enough:
all methods of one name along a chain have one signature, so a subclass answers every call that its
superclass answers, and in the same types.
-/

namespace MiniJava.Hierarchy
open Relation

variable {h : Hierarchy}

/-- Every method has the signature of the nearest one it overrides. -/
def OverridesAgree (h : Hierarchy) : Prop :=
  ∀ c, h.Bound c → ∀ m i o, c.methods.get? m = some i →
    (h.ancestors c).findSome? (·.methods.get? m) = some o → i.sig = o.sig

lemma findMethod?_of_bound {c : ClassInfo} (hc : h.Bound c) (m : String) :
    h.findMethod? c.name m = (c :: h.ancestors c).findSome? (·.methods.get? m) := by
  rw [findMethod?_eq, hc, Option.bind_some]

/-- Going one class down keeps the methods and their signatures. -/
lemma findMethod?_of_extends (hk : h.Keyed) (ha : h.Acyclic) (ho : h.OverridesAgree)
    {c s : ClassInfo} (hc : h.Bound c) (hs : h.Extends c s) {m : String} {i : MethodInfo}
    (hi : h.findMethod? s.name m = some i) :
    ∃ j, h.findMethod? c.name m = some j ∧ j.sig = i.sig := by
  rw [findMethod?_of_bound (hk.bound_of_extends hs), ← ancestors_eq_cons hk ha hc hs] at hi
  rw [findMethod?_of_bound hc, List.findSome?_cons]
  cases hown : c.methods.get? m with
  | none => exact ⟨i, hi, rfl⟩
  | some j => exact ⟨j, rfl, ho c hc m j i hown hi⟩

/-- A subclass at any distance has the methods of its superclass, with the same signatures. -/
theorem findMethod?_of_reachable (hk : h.Keyed) (ha : h.Acyclic) (ho : h.OverridesAgree)
    {c d : ClassInfo} (hc : h.Bound c) (hcd : ReflTransGen h.Extends c d) {m : String}
    {i : MethodInfo} (hi : h.findMethod? d.name m = some i) :
    ∃ j, h.findMethod? c.name m = some j ∧ j.sig = i.sig := by
  induction hcd using ReflTransGen.head_induction_on with
  | refl => exact ⟨i, hi, rfl⟩
  | head hcs _ ih =>
    obtain ⟨j, hj, hji⟩ := ih (hk.bound_of_extends hcs)
    obtain ⟨l, hl, hlj⟩ := findMethod?_of_extends hk ha ho hc hcs hj
    exact ⟨l, hl, hlj.trans hji⟩

theorem findMethod?_of_derivesFrom (hk : h.Keyed) (ha : h.Acyclic) (ho : h.OverridesAgree)
    {a b m : String} (hab : h.derivesFrom a b = true) {i : MethodInfo}
    (hi : h.findMethod? b m = some i) :
    ∃ j, h.findMethod? a m = some j ∧ j.sig = i.sig := by
  rcases (derivesFrom_iff hk a b).1 hab with rfl | ⟨c, d, hc, hcd, rfl⟩
  · exact ⟨i, hi, rfl⟩
  · have hname := hk a c hc
    subst hname
    exact findMethod?_of_reachable hk ha ho hc hcd.to_reflTransGen hi

end MiniJava.Hierarchy

namespace MiniJava.Program
open Relation

variable {p : Program}

/-- Comparing with the nearest method above is comparing with all of them. -/
theorem overridesAgree_iff (hr : p.Regular) :
    p.hierarchy.OverridesAgree ↔ p.OverridesSame := by
  have hk := p.hierarchy_keyed
  have ha := hr.acyclic_hierarchy
  constructor
  · intro ho a b hab m s t hs ht
    obtain ⟨r, har, _⟩ := TransGen.head'_iff.1 hab
    obtain ⟨c, hc⟩ := exists_get?_hierarchy (mem_classNames_of_extends har)
    obtain ⟨d, hd, hcd⟩ := (transGen_hierarchy_iff hr.distinct hr.closed hc b).1 hab
    obtain ⟨i, hi, rfl⟩ := Option.map_eq_some_iff.1 ((hasMethod_iff hr.distinct hc m s).1 hs)
    obtain ⟨o, hom, rfl⟩ := Option.map_eq_some_iff.1 ((hasMethod_iff hr.distinct hd m t).1 ht)
    have hcb := hk.bound hc
    have hdb := hk.bound hd
    have hfound : p.hierarchy.findMethod? d.name m = some o := by
      rw [Hierarchy.findMethod?_of_bound hdb, List.findSome?_cons, hom]
    obtain ⟨j, hj, hjo⟩ :=
      Hierarchy.findMethod?_of_reachable hk ha ho hcb hcd.to_reflTransGen hfound
    rw [Hierarchy.findMethod?_of_bound hcb, List.findSome?_cons, hi] at hj
    cases hj
    exact hjo
  · intro hall c hc m i o hi ho
    obtain ⟨e, he, heo⟩ := List.exists_of_findSome?_eq_some ho
    have hce := ((Hierarchy.mem_ancestors_iff hk hc).1 he).1
    have heb := hk.bound_of_transGen hce
    have hab : TransGen p.Extends c.name e.name :=
      (transGen_hierarchy_iff hr.distinct hr.closed hc e.name).2 ⟨e, heb, hce⟩
    refine hall c.name e.name hab m i.sig o.sig ?_ ?_
    · exact (hasMethod_iff hr.distinct hc m _).2 (by rw [hi]; rfl)
    · exact (hasMethod_iff hr.distinct heb m _).2 (by rw [heo]; rfl)

end MiniJava.Program
