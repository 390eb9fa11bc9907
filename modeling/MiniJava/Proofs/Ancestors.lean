import Mathlib.Data.List.Perm.Subperm
import Mathlib.Order.Bounds.Basic
import MiniJava.Proofs.Collecting
import MiniJava.Proofs.Walks

/-!
# The ancestors of a class

The walk to the ancestors of a class ends on every hierarchy, whatever its superclasses are and
under whatever names they are known. The classes it meets stand in the order of their distance, and
where classes are known by their own names it misses none.
-/

namespace MiniJava.Hierarchy
open Relation

variable {h : Hierarchy}

/-- The class `n` steps up the chain of superclasses. -/
def climb (h : Hierarchy) : Nat → ClassInfo → Option ClassInfo
  | 0, c => some c
  | n + 1, c => (h.superclass? c).bind (h.climb n)

/-- A chain of superclasses is met step by step. -/
lemma climb_of_isChain {c d : ClassInfo} {l : List ClassInfo} (hl : (c :: l).IsChain h.Extends)
    {n : Nat} (hd : (c :: l)[n]? = some d) : h.climb n c = some d := by
  induction l generalizing c n with
  | nil =>
    cases n with
    | zero => exact hd
    | succ n => cases hd
  | cons s l ih =>
    obtain ⟨hs, htail⟩ := List.isChain_cons_cons.1 hl
    cases n with
    | zero => exact hd
    | succ n =>
      have hsuper : h.superclass? c = some s := hs
      rw [climb, hsuper, Option.bind_some]
      exact ih htail hd

lemma walked_ancestors (h : Hierarchy) (c : ClassInfo) :
    h.Walked [c.name] (h.superclass? c) (h.ancestors c) :=
  walked_above _ _

lemma isChain_ancestors (h : Hierarchy) (c : ClassInfo) :
    (c :: h.ancestors c).IsChain h.Extends :=
  (h.walked_ancestors c).isChain_cons rfl

lemma nodup_names_ancestors (h : Hierarchy) (c : ClassInfo) :
    ((c :: h.ancestors c).map ClassInfo.name).Nodup := by
  have hwalk := h.walked_ancestors c
  rw [List.map_cons, List.nodup_cons]
  refine ⟨?_, hwalk.nodup_names⟩
  intro hmem
  obtain ⟨d, hd, hname⟩ := List.mem_map.1 hmem
  exact hwalk.name_not_mem hd (by simp [hname])

/-- No class is met for whose name there is no place among the classes of the hierarchy. -/
lemma length_ancestors_le (h : Hierarchy) (c : ClassInfo) : (h.ancestors c).length ≤ h.size := by
  have hnodup := (h.walked_ancestors c).nodup_names
  have hsub : (h.ancestors c).map ClassInfo.name ⊆ h.members.map ClassInfo.name := by
    intro name hname
    obtain ⟨d, hd, rfl⟩ := List.mem_map.1 hname
    obtain ⟨s, hs, hsd⟩ := (h.walked_ancestors c).reachable hd
    obtain ⟨t, ht⟩ : ∃ t, h.Extends t d := by
      rcases ReflTransGen.cases_tail hsd with rfl | ⟨t, _, ht⟩
      · exact ⟨c, hs⟩
      · exact ⟨t, ht⟩
    exact List.mem_map_of_mem (mem_members_of_superclass? ht)
  have hle := (List.Nodup.subperm hnodup hsub).length_le
  rwa [List.length_map, List.length_map, length_members] at hle

/-- The ancestors stand in the order of their distance: the one at position `i` is met after `i + 1`
steps and not before. -/
theorem isLeast_climb {c d : ClassInfo} {i : Nat} (hd : (h.ancestors c)[i]? = some d) :
    IsLeast {n | 0 < n ∧ h.climb n c = some d} (i + 1) := by
  have hchain := h.isChain_ancestors c
  refine ⟨⟨i.succ_pos, climb_of_isChain hchain hd⟩, ?_⟩
  rintro n ⟨hpos, hn⟩
  by_contra hlt
  -- fewer steps lead to a class that stands earlier, and it has another name
  obtain ⟨j, rfl⟩ := Nat.exists_eq_succ_of_ne_zero (Nat.pos_iff_ne_zero.1 hpos)
  have hi : i < (h.ancestors c).length := (List.getElem?_eq_some_iff.1 hd).1
  have hj : j < (h.ancestors c).length := by omega
  obtain ⟨e, he⟩ : ∃ e, (h.ancestors c)[j]? = some e := ⟨_, List.getElem?_eq_getElem hj⟩
  have hed : e = d := Option.some.inj ((climb_of_isChain hchain he).symm.trans hn)
  subst hed
  have hnodup := (h.walked_ancestors c).nodup_names
  have hij : j = i := by
    refine (List.getElem?_inj (by simpa using hj) hnodup).1 ?_
    rw [List.getElem?_map, List.getElem?_map, he, hd]
  omega

/-- Take any hierarchy and any class, known or not. The walk to its ancestors ends, at an unknown
superclass or at a name met before. No two classes it meets are called alike, none is called like
the class itself, each is the superclass of the one before it, and they come in the order of their
distance. If the chain never comes back to the class, the ancestors are the superclass and its
ancestors. Where every name stands for a class of that name and the class is the one known by its
own name, the ancestors are all classes above it that are not called like it. -/
theorem superclass_walk_complete (h : Hierarchy) (c : ClassInfo) :
    h.Walked [c.name] (h.superclass? c) (h.ancestors c) ∧ (h.ancestors c).length ≤ h.size ∧
    ((c :: h.ancestors c).map ClassInfo.name).Nodup ∧ (c :: h.ancestors c).IsChain h.Extends ∧
    (∀ i d, (h.ancestors c)[i]? = some d → IsLeast {n | 0 < n ∧ h.climb n c = some d} (i + 1)) ∧
    (∀ s, h.Extends c s → (∀ d, ReflTransGen h.Extends s d → d.name ≠ c.name) →
      h.ancestors c = s :: h.ancestors s) ∧
    (h.Keyed → h.Bound c →
      (∀ d, d ∈ h.ancestors c ↔ TransGen h.Extends c d ∧ d.name ≠ c.name) ∧
      ∀ s, h.Extends c s → (∀ d, TransGen h.Extends s d → d.name ≠ c.name) →
        h.ancestors c = s :: h.ancestors s) := by
  refine ⟨h.walked_ancestors c, h.length_ancestors_le c, h.nodup_names_ancestors c,
    h.isChain_ancestors c, fun i d => isLeast_climb, fun s => ancestors_eq_cons_of_unreachable, ?_⟩
  intro hk hc
  refine ⟨fun d => mem_ancestors_iff hk hc, ?_⟩
  intro s hs hnever
  apply ancestors_eq_cons_of_unreachable hs
  intro d hsd hname
  rcases reflTransGen_iff_eq_or_transGen.1 hsd with rfl | hsd
  · -- the superclass would be the class itself, one step above itself
    have heq : d = c := (hk.bound_of_extends hs).eq_of_name_eq hc hname
    exact hnever d (.single (by rw [heq] at hs ⊢; exact hs)) hname
  · exact hnever d hsd hname

/-- Where every layer has its classes under their own names, every name stands for a class of that
name. -/
lemma keyed_of_layers (hall : ∀ b ∈ h.layers, ∀ e ∈ b.entries, e.2.name = e.1) : h.Keyed := by
  intro name c hc
  obtain ⟨b, hb, hget⟩ := List.exists_of_findSome?_eq_some hc
  exact hall b hb (name, c) ((Bindings.get?_eq_some_iff b name c).1 hget)

/-- A class without members. -/
def bare (number : Nat) (name superName : String) : ClassInfo :=
  ⟨name, some superName, .synthetic number, .empty, .empty⟩

/-- Classes `B` and `C` extend each other, one in either layer. `A` leads into their circle, and its
namesake in the outer layer is not seen. The superclass of `E` is unknown. -/
def knot : Hierarchy where
  own := ⟨[("A", bare 0 "A" "B"), ("B", bare 1 "B" "C"), ("E", bare 2 "E" "Z")], by decide⟩
  outer := [⟨[("C", bare 3 "C" "B"), ("A", bare 4 "A" "E")], by decide⟩]

lemma keyed_knot : knot.Keyed := keyed_of_layers (by decide)

/-- From `A` the walk meets `B` and `C` and stops where `B` would come again. From `B` it meets `C`
alone, so that the ancestors of `A` are `B` and the ancestors of `B`. -/
theorem superclass_walk_complete_knot :
    knot.Keyed ∧ knot.Bound (bare 0 "A" "B") ∧
    (∀ d, d ∈ knot.ancestors (bare 0 "A" "B") ↔
      TransGen knot.Extends (bare 0 "A" "B") d ∧ d.name ≠ "A") ∧
    knot.ancestors (bare 0 "A" "B") = bare 1 "B" "C" :: knot.ancestors (bare 1 "B" "C") ∧
    (knot.ancestors (bare 1 "B" "C")).map ClassInfo.name = ["C"] ∧
    IsLeast {n | 0 < n ∧ knot.climb n (bare 0 "A" "B") = some (bare 3 "C" "B")} 2 := by
  have hstep : knot.Extends (bare 0 "A" "B") (bare 1 "B" "C") := rfl
  have hnever : ∀ d, ReflTransGen knot.Extends (bare 1 "B" "C") d → d.name ≠ "A" := by
    intro d hd
    -- the two classes of the circle lead to each other only
    have hcircle : d = bare 1 "B" "C" ∨ d = bare 3 "C" "B" := by
      induction hd with
      | refl => exact .inl rfl
      | tail _ hlast ih =>
        rcases ih with rfl | rfl
        · exact .inr (Option.some.inj hlast).symm
        · exact .inl (Option.some.inj hlast).symm
    rcases hcircle with rfl | rfl
    · decide
    · decide
  obtain ⟨_, _, _, _, horder, hcons, hall⟩ := superclass_walk_complete knot (bare 0 "A" "B")
  exact ⟨keyed_knot, rfl, (hall keyed_knot rfl).1, hcons _ hstep hnever, by decide, horder 1 _ rfl⟩

end MiniJava.Hierarchy
