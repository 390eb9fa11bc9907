import MiniJava.Proofs.Acceptance
import MiniJava.Proofs.Ancestors

/-!
# Subclassing and assignment as orders

The subclass test is the closure of the superclass link, on circular and broken hierarchies as well,
and therefore a preorder. Assignment is one too, but for the type of failed expressions, which goes
for everything and for which everything goes. In an accepted program no two classes are subclasses
of each other.
-/

namespace MiniJava.Hierarchy
open Relation

variable {h : Hierarchy}

lemma derivesFrom_refl (h : Hierarchy) (a : String) : h.derivesFrom a a = true := by
  simp [derivesFrom]

/-- The class at the upper end of one chain is the one at which the next chain starts. -/
lemma Keyed.transGen_of_name (hk : h.Keyed) {b : String} {c d e : ClassInfo}
    (hcd : TransGen h.Extends c d) (hname : d.name = b) (he : h.get? b = some e) :
    TransGen h.Extends c e := by
  have hbound : h.Bound d := hk.bound_of_transGen hcd
  rw [Bound, hname, he] at hbound
  cases hbound
  exact hcd

theorem derivesFrom_trans (hk : h.Keyed) {a b c : String} (hab : h.derivesFrom a b = true)
    (hbc : h.derivesFrom b c = true) : h.derivesFrom a c = true := by
  rw [derivesFrom_iff hk] at hab hbc ⊢
  rcases hab with rfl | ⟨r, s, hr, hrs, hs⟩
  · exact hbc
  rcases hbc with rfl | ⟨t, u, ht, htu, hu⟩
  · exact .inr ⟨r, s, hr, hrs, hs⟩
  · exact .inr ⟨r, u, hr, (hk.transGen_of_name hrs hs ht).trans htu, hu⟩

/-- Without circles two classes that are subclasses of each other are one. -/
theorem derivesFrom_antisymm (hk : h.Keyed) (ha : h.Acyclic) {a b : String}
    (hab : h.derivesFrom a b = true) (hba : h.derivesFrom b a = true) : a = b := by
  rw [derivesFrom_iff hk] at hab hba
  rcases hab with rfl | ⟨r, s, hr, hrs, hs⟩
  · rfl
  rcases hba with rfl | ⟨t, u, ht, htu, hu⟩
  · rfl
  · have hrt : TransGen h.Extends r t := hk.transGen_of_name hrs hs ht
    have htr : TransGen h.Extends t r := hk.transGen_of_name htu hu hr
    exact absurd (hrt.trans htr) (ha r (hk.bound hr))

/-- Types go for themselves, classes for their superclasses, and a failed one is never at fault. -/
lemma assignable_iff (h : Hierarchy) (s t : Ty) :
    h.assignable s t = true ↔ s = .error ∨ t = .error ∨ s = t ∨
      ∃ a b, s = .object a ∧ t = .object b ∧ h.derivesFrom a b = true := by
  cases s with
  | object a =>
    cases t with
    | object b =>
      have hsame : a = b → h.derivesFrom a b = true := by
        rintro rfl
        exact h.derivesFrom_refl a
      simpa [assignable] using hsame
    | _ => simp [assignable]
  | _ => cases t <;> simp [assignable]

lemma assignable_refl (h : Hierarchy) (t : Ty) : h.assignable t t = true := by
  simp [assignable_iff]

/-- Assignment may be done in two steps through any type but the failed one. -/
theorem assignable_trans (hk : h.Keyed) {s t u : Ty} (ht : t ≠ .error)
    (hst : h.assignable s t = true) (htu : h.assignable t u = true) : h.assignable s u = true := by
  rcases (h.assignable_iff s t).1 hst with rfl | herror | rfl | ⟨a, b, rfl, rfl, hab⟩
  · simp [assignable_iff]
  · exact absurd herror ht
  · exact htu
  rcases (h.assignable_iff _ u).1 htu with herror | rfl | rfl | ⟨b', c, hb, rfl, hbc⟩
  · exact absurd herror ht
  · simp [assignable_iff]
  · exact hst
  · cases hb
    exact (h.assignable_iff _ _).2
      (.inr (.inr (.inr ⟨a, c, rfl, rfl, derivesFrom_trans hk hab hbc⟩)))

end MiniJava.Hierarchy

namespace MiniJava
open Relation

/-- Where every name stands for a class of that name, be the superclasses unknown or in a circle, a
class is a subclass of itself and of the classes above it and of nothing else. Subclassing is then
reflexive and transitive, and so is assignment, as long as the type in the middle is not the failed
one. In an accepted program subclassing is antisymmetric as well. -/
theorem subclassing_closes_extends :
    (∀ h : Hierarchy, h.Keyed →
      (∀ a b, h.derivesFrom a b = true ↔
        a = b ∨ ∃ c d, h.get? a = some c ∧ TransGen h.Extends c d ∧ d.name = b) ∧
      (∀ a, h.derivesFrom a a = true) ∧
      (∀ a b c, h.derivesFrom a b = true → h.derivesFrom b c = true → h.derivesFrom a c = true) ∧
      (∀ t, h.assignable t t = true) ∧
      ∀ s t u, t ≠ .error → h.assignable s t = true → h.assignable t u = true →
        h.assignable s u = true) ∧
    ∀ (p : Program) (checked : Checked), p.check = .ok checked →
      ∀ a b, checked.hierarchy.derivesFrom a b = true → checked.hierarchy.derivesFrom b a = true →
        a = b := by
  constructor
  · intro h hk
    exact ⟨Hierarchy.derivesFrom_iff hk, h.derivesFrom_refl,
      fun a b c => Hierarchy.derivesFrom_trans hk, h.assignable_refl,
      fun s t u => Hierarchy.assignable_trans hk⟩
  · intro p checked hok a b hab hba
    obtain ⟨hp, rfl⟩ := (Program.check_eq_ok_iff p checked).1 hok
    exact Hierarchy.derivesFrom_antisymm p.hierarchy_keyed hp.regular.acyclic_hierarchy hab hba

/-- Through the circle of `B` and `C` a value of class `A` goes for `C`, and `A` is not above them.
In a chain without circles the classes of which each derives from the other are equal. -/
theorem subclassing_closes_extends_knot :
    Hierarchy.knot.Keyed ∧ Hierarchy.knot.derivesFrom "A" "C" = true ∧
    Hierarchy.knot.assignable (.object "A") (.object "C") = true ∧
    (¬ ∃ c d, Hierarchy.knot.get? "C" = some c ∧ TransGen Hierarchy.knot.Extends c d ∧
      d.name = "A") ∧
    Program.overridingChain.check =
      .ok ⟨Program.overridingChain, Program.overridingChain.hierarchy⟩ ∧
    ∀ a b, Program.overridingChain.hierarchy.derivesFrom a b = true →
      Program.overridingChain.hierarchy.derivesFrom b a = true → a = b := by
  obtain ⟨hclosed, hanti⟩ := subclassing_closes_extends
  obtain ⟨hiff, _, htrans, _, hassign⟩ := hclosed Hierarchy.knot Hierarchy.keyed_knot
  have hok : Program.overridingChain.check =
      .ok ⟨Program.overridingChain, Program.overridingChain.hierarchy⟩ := by rfl
  refine ⟨Hierarchy.keyed_knot, htrans "A" "B" "C" (by decide) (by decide),
    hassign _ (.object "B") _ (by decide) (by decide) (by decide), ?_, hok,
    hanti Program.overridingChain _ hok⟩
  intro hreach
  have hderives : Hierarchy.knot.derivesFrom "C" "A" = true := (hiff "C" "A").2 (.inr hreach)
  exact absurd hderives (by decide)

end MiniJava
