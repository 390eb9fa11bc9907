import Mathlib.Data.List.Forall2
import MiniJava.Proofs.Walks

/-!
# Hierarchies side by side

Two hierarchies whose classes are related one to one, each with a class of its own name and such
that the superclasses are related again. A walk up one of them is then a walk up the other, class by
class, on circles too, and whatever is searched on the way is found at the same place.
-/

namespace MiniJava.Hierarchy

variable {S : ClassInfo → ClassInfo → Prop} {h k : Hierarchy} {c d : ClassInfo}

/-- A search that makes no difference between related classes finds the same. -/
lemma findSome?_eq_of_forall₂ {α : Type} {f : ClassInfo → Option α}
    (hf : ∀ c d, S c d → f c = f d) {l l' : List ClassInfo} (hl : List.Forall₂ S l l') :
    l.findSome? f = l'.findSome? f := by
  induction hl with
  | nil => rfl
  | cons hcd _ ih => rw [List.findSome?_cons, List.findSome?_cons, hf _ _ hcd, ih]

/-- Related classes have the same name, and the classes right above them are related. -/
structure Parallel (S : ClassInfo → ClassInfo → Prop) (h k : Hierarchy) : Prop where
  name : ∀ c d, S c d → c.name = d.name
  superclass? : ∀ c d, S c d → Option.Rel S (h.superclass? c) (k.superclass? d)

lemma Walked.parallel (hhk : Parallel S h k) {seen : List String} {start start' : Option ClassInfo}
    {l : List ClassInfo} (hl : h.Walked seen start l) (hstart : Option.Rel S start start') :
    ∃ l', k.Walked seen start' l' ∧ List.Forall₂ S l l' := by
  -- classes met at the same time have the same name, so both walks have seen the same names
  induction hl generalizing start' with
  | unknown seen =>
    cases hstart
    exact ⟨[], .unknown seen, .nil⟩
  | again hc =>
    cases hstart with
    | some hcd => exact ⟨[], .again (hhk.name _ _ hcd ▸ hc), .nil⟩
  | on hc _ ih =>
    cases hstart with
    | @some _ d hcd =>
      obtain ⟨l', hl', hall⟩ := ih (hhk.superclass? _ _ hcd)
      rw [hhk.name _ _ hcd] at hl' hc
      exact ⟨d :: l', .on hc hl', .cons hcd hall⟩

namespace Parallel

lemma walk (hhk : Parallel S h k) (hcd : S c d) (seen : List String) :
    List.Forall₂ S (h.walk seen (h.superclass? c)) (k.walk seen (k.superclass? d)) := by
  obtain ⟨l, hl, hall⟩ := (walked_above seen c).parallel hhk (hhk.superclass? c d hcd)
  rw [(walked_above seen d).unique hl]
  exact hall

lemma ancestors (hhk : Parallel S h k) (hcd : S c d) :
    List.Forall₂ S (h.ancestors c) (k.ancestors d) := by
  rw [Hierarchy.ancestors, Hierarchy.ancestors, hhk.name c d hcd]
  exact hhk.walk hcd _

lemma any_name (hhk : Parallel S h k) {l l' : List ClassInfo} (hl : List.Forall₂ S l l')
    (name : String) : l.any (·.name == name) = l'.any (·.name == name) := by
  induction hl with
  | nil => rfl
  | cons hcd _ ih => rw [List.any_cons, List.any_cons, ih, hhk.name _ _ hcd]

lemma onCycle (hhk : Parallel S h k) (hcd : S c d) : h.onCycle c = k.onCycle d := by
  rw [Hierarchy.onCycle, Hierarchy.onCycle, hhk.name c d hcd]
  exact hhk.any_name (hhk.walk hcd []) d.name

lemma derivesFrom (hhk : Parallel S h k) {a : String} (ha : Option.Rel S (h.get? a) (k.get? a))
    (b : String) : h.derivesFrom a b = k.derivesFrom a b := by
  unfold Hierarchy.derivesFrom
  generalize h.get? a = x at ha ⊢
  generalize k.get? a = y at ha ⊢
  cases ha with
  | none => rfl
  | some hcd => simp only [hhk.any_name (hhk.ancestors hcd)]

lemma cons_ancestors (hhk : Parallel S h k) (hcd : S c d) :
    List.Forall₂ S (c :: h.ancestors c) (d :: k.ancestors d) :=
  .cons hcd (hhk.ancestors hcd)

lemma findMethod? (hhk : Parallel S h k) {a : String} (ha : Option.Rel S (h.get? a) (k.get? a))
    {m : String} (hm : ∀ c d, S c d → c.methods.get? m = d.methods.get? m) :
    h.findMethod? a m = k.findMethod? a m := by
  rw [findMethod?_eq, findMethod?_eq]
  generalize h.get? a = x at ha ⊢
  generalize k.get? a = y at ha ⊢
  cases ha with
  | none => rfl
  | some hcd => exact findSome?_eq_of_forall₂ hm (hhk.cons_ancestors hcd)

end Parallel

end MiniJava.Hierarchy
