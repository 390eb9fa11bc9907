import Mathlib.Data.List.Chain
import Mathlib.Logic.Relation
import MiniJava.Hierarchy.Basic

/-!
# Superclass walks

A walk up the chain of superclasses stops at an unknown superclass and at the first name it has
seen. This file says what such a walk finds: on every hierarchy that knows its classes by their own
names, circles included, it loses no class that can be reached. Without circles the ancestors of a
class are its superclass followed by the ancestors of that class.
-/

namespace MiniJava.Hierarchy
open Relation

variable {h : Hierarchy}

/-- `d` is the direct superclass of `c`. -/
def Extends (h : Hierarchy) (c d : ClassInfo) : Prop := h.superclass? c = some d

/-- The class is the one known by its own name. -/
def Bound (h : Hierarchy) (c : ClassInfo) : Prop := h.get? c.name = some c

/-- Every name stands for a class of that name. -/
def Keyed (h : Hierarchy) : Prop := ∀ name c, h.get? name = some c → c.name = name

lemma Keyed.bound (hk : h.Keyed) {name : String} {c : ClassInfo} (hc : h.get? name = some c) :
    h.Bound c := by
  have hname := hk name c hc
  rw [Bound, hname]
  exact hc

lemma Keyed.bound_of_extends (hk : h.Keyed) {c d : ClassInfo} (hd : h.Extends c d) :
    h.Bound d := by
  obtain ⟨s, _, hs⟩ := Option.bind_eq_some_iff.1 hd
  exact hk.bound hs

lemma Keyed.bound_of_transGen (hk : h.Keyed) {c d : ClassInfo} (hcd : TransGen h.Extends c d) :
    h.Bound d := by
  obtain ⟨_, _, hlast⟩ := TransGen.tail'_iff.1 hcd
  exact hk.bound_of_extends hlast

lemma Bound.eq_of_name_eq {c d : ClassInfo} (hc : h.Bound c) (hd : h.Bound d)
    (hn : c.name = d.name) : c = d := by
  have heq : some c = some d := by
    rw [← hc, ← hd, hn]
  exact Option.some.inj heq

lemma Extends.unique {c d e : ClassInfo} (hd : h.Extends c d) (he : h.Extends c e) : d = e :=
  Option.some.inj (hd.symm.trans he)

/-- The course of a walk: from where it starts and with which names seen it finds which classes. -/
inductive Walked (h : Hierarchy) : List String → Option ClassInfo → List ClassInfo → Prop
  | unknown (seen : List String) : Walked h seen none []
  | again {seen : List String} {c : ClassInfo} (hc : c.name ∈ seen) : Walked h seen (some c) []
  | on {seen : List String} {c : ClassInfo} {l : List ClassInfo} (hc : c.name ∉ seen)
      (hl : Walked h (c.name :: seen) (h.superclass? c) l) : Walked h seen (some c) (c :: l)

theorem walked_walk {seen : List String} {start : Option ClassInfo}
    (hstart : ∀ c, start = some c → c ∈ h.members) : h.Walked seen start (h.walk seen start) := by
  -- each step makes the unseen classes fewer
  induction hn : (h.unseen seen).length using Nat.strongRecOn generalizing seen start with
  | _ n ih =>
    cases start with
    | none =>
      rw [walk_none]
      exact .unknown seen
    | some c =>
      have hc : c ∈ h.members := hstart c rfl
      rw [walk_some hc]
      by_cases hs : c.name ∈ seen
      · rw [if_pos hs]
        exact .again hs
      · rw [if_neg hs]
        have hlt : (h.unseen (c.name :: seen)).length < n := hn ▸ unseen_cons_lt hc hs
        exact .on hs (ih _ hlt (fun d hd => mem_members_of_superclass? hd) rfl)

lemma walked_above (seen : List String) (c : ClassInfo) :
    h.Walked seen (h.superclass? c) (h.walk seen (h.superclass? c)) :=
  walked_walk fun _ hd => mem_members_of_superclass? hd

namespace Walked

variable {seen : List String} {start : Option ClassInfo} {l : List ClassInfo}

lemma unique (hl : h.Walked seen start l) {l' : List ClassInfo} (hl' : h.Walked seen start l') :
    l = l' := by
  induction hl generalizing l' with
  | unknown seen =>
    cases hl'
    rfl
  | again hc =>
    cases hl' with
    | again _ => rfl
    | on hc' _ => exact absurd hc hc'
  | on hc _ ih =>
    cases hl' with
    | again hc' => exact absurd hc' hc
    | on _ hl' => rw [ih hl']

lemma name_not_mem (hl : h.Walked seen start l) {d : ClassInfo} (hd : d ∈ l) : d.name ∉ seen := by
  induction hl with
  | unknown seen => cases hd
  | again hc => cases hd
  | on hc _ ih =>
    rcases List.mem_cons.1 hd with rfl | hd
    · exact hc
    · intro hmem
      exact ih hd (List.mem_cons_of_mem _ hmem)

lemma reachable (hl : h.Walked seen start l) {d : ClassInfo} (hd : d ∈ l) :
    ∃ s, start = some s ∧ ReflTransGen h.Extends s d := by
  induction hl with
  | unknown seen => cases hd
  | again hc => cases hd
  | on hc _ ih =>
    refine ⟨_, rfl, ?_⟩
    rcases List.mem_cons.1 hd with rfl | hd
    · exact .refl
    · obtain ⟨s, hs, hreach⟩ := ih hd
      exact .head hs hreach

lemma start_mem_or_seen {s : ClassInfo} (hl : h.Walked seen (some s) l) :
    s ∈ l ∨ s.name ∈ seen := by
  cases hl with
  | again hs => exact .inr hs
  | on _ _ => exact .inl List.mem_cons_self

/-- A walk meets no name twice. -/
lemma nodup_names (hl : h.Walked seen start l) : (l.map ClassInfo.name).Nodup := by
  induction hl with
  | unknown seen => exact List.nodup_nil
  | again hc => exact List.nodup_nil
  | on hc hl ih =>
    rw [List.map_cons, List.nodup_cons]
    refine ⟨?_, ih⟩
    intro hmem
    obtain ⟨d, hd, hname⟩ := List.mem_map.1 hmem
    exact hl.name_not_mem hd (hname ▸ List.mem_cons_self)

/-- Each class that a walk meets is the superclass of the one before it. -/
lemma isChain_cons {c : ClassInfo} (hl : h.Walked seen start l) (hc : h.superclass? c = start) :
    (c :: l).IsChain h.Extends := by
  induction hl generalizing c with
  | unknown seen => exact .singleton c
  | again _ => exact .singleton c
  | on _ _ ih => exact .cons_cons hc (ih rfl)

/-- Names that the walk does not meet may be counted as seen. -/
lemma of_seen_subset (hl : h.Walked seen start l) {seen' : List String} (hsub : seen ⊆ seen')
    (hfresh : ∀ d ∈ l, d.name ∉ seen') : h.Walked seen' start l := by
  induction hl generalizing seen' with
  | unknown seen => exact .unknown seen'
  | again hc => exact .again (hsub hc)
  | on hc hl ih =>
    refine .on (hfresh _ List.mem_cons_self) (ih (List.cons_subset_cons _ hsub) ?_)
    intro d hd hmem
    rcases List.mem_cons.1 hmem with heq | hmem
    · exact hl.name_not_mem hd (heq ▸ List.mem_cons_self)
    · exact hfresh d (List.mem_cons_of_mem _ hd) hmem

/-- A walk that leaves out a superclass had seen its name before it started. -/
lemma mem_or_seen (hl : h.Walked seen start l) (hk : h.Keyed)
    (hstart : ∀ s, start = some s → h.Bound s) {d e : ClassInfo} (hd : d ∈ l)
    (he : h.Extends d e) : e ∈ l ∨ e.name ∈ seen := by
  induction hl with
  | unknown seen => cases hd
  | again hc => cases hd
  | @on seen c l hc hl ih =>
    have hback : e.name ∈ c.name :: seen → e ∈ c :: l ∨ e.name ∈ seen := by
      intro hmem
      rcases List.mem_cons.1 hmem with heq | hmem
      · have hec : e = c := (hk.bound_of_extends he).eq_of_name_eq (hstart c rfl) heq
        exact .inl (hec ▸ List.mem_cons_self)
      · exact .inr hmem
    rcases List.mem_cons.1 hd with rfl | hd
    · have hsuper : h.superclass? d = some e := he
      rw [hsuper] at hl
      rcases hl.start_mem_or_seen with hmem | hmem
      · exact .inl (List.mem_cons_of_mem _ hmem)
      · exact hback hmem
    · rcases ih (fun s hs => hk.bound_of_extends hs) hd with hmem | hmem
      · exact .inl (List.mem_cons_of_mem _ hmem)
      · exact hback hmem

end Walked

/-- The ancestors are all classes up the chain but the class itself. -/
theorem mem_ancestors_iff (hk : h.Keyed) {c d : ClassInfo} (hc : h.Bound c) :
    d ∈ h.ancestors c ↔ TransGen h.Extends c d ∧ d.name ≠ c.name := by
  have hwalk : h.Walked [c.name] (h.superclass? c) (h.ancestors c) := walked_above _ _
  constructor
  · intro hd
    obtain ⟨s, hs, hreach⟩ := hwalk.reachable hd
    refine ⟨TransGen.head' hs hreach, ?_⟩
    simpa using hwalk.name_not_mem hd
  · rintro ⟨hreach, hne⟩
    have hfirst : ∀ s, h.Extends c s → s ∈ h.ancestors c ∨ s.name = c.name := by
      intro s hs
      have hsuper : h.superclass? c = some s := hs
      rw [hsuper] at hwalk
      simpa using hwalk.start_mem_or_seen
    have hall : d ∈ h.ancestors c ∨ d.name = c.name := by
      induction hreach with
      | single hs => exact hfirst _ hs
      | @tail e d hce hed ih =>
        by_cases hec : e.name = c.name
        · -- the chain is back at `c`
          have heq : e = c := (hk.bound_of_transGen hce).eq_of_name_eq hc hec
          exact hfirst d (heq ▸ hed)
        · have hmem : e ∈ h.ancestors c := (ih hec).resolve_right hec
          have hstart : ∀ s, h.superclass? c = some s → h.Bound s :=
            fun s hs => hk.bound_of_extends hs
          simpa using hwalk.mem_or_seen hk hstart hmem hed
    exact hall.resolve_right hne

/-- The test for a circle finds exactly the classes on one. -/
theorem onCycle_iff (hk : h.Keyed) {c : ClassInfo} (hc : h.Bound c) :
    h.onCycle c = true ↔ TransGen h.Extends c c := by
  have hwalk : h.Walked [] (h.superclass? c) (h.walk [] (h.superclass? c)) := walked_above _ _
  have hstart : ∀ s, h.superclass? c = some s → h.Bound s := fun s hs => hk.bound_of_extends hs
  rw [onCycle, List.any_eq_true]
  constructor
  · rintro ⟨d, hd, hn⟩
    obtain ⟨s, hs, hreach⟩ := hwalk.reachable hd
    have hcd : TransGen h.Extends c d := TransGen.head' hs hreach
    have heq : d = c := (hk.bound_of_transGen hcd).eq_of_name_eq hc (by simpa using hn)
    exact heq ▸ hcd
  · intro hreach
    have hall : ∀ d, TransGen h.Extends c d → d ∈ h.walk [] (h.superclass? c) := by
      intro d hd
      induction hd with
      | single hs =>
        have hsuper : h.superclass? c = some _ := hs
        rw [hsuper] at hwalk ⊢
        simpa using hwalk.start_mem_or_seen
      | tail _ hlast ih => simpa using hwalk.mem_or_seen hk hstart ih hlast
    exact ⟨c, hall c hreach, by simp⟩

/-- Subclassing is reachability up the chain. -/
theorem derivesFrom_iff (hk : h.Keyed) (a b : String) :
    h.derivesFrom a b = true ↔
      a = b ∨ ∃ c d, h.get? a = some c ∧ TransGen h.Extends c d ∧ d.name = b := by
  rw [derivesFrom, Bool.or_eq_true, beq_iff_eq]
  by_cases hne : a = b
  · simp [hne]
  simp only [hne, false_or]
  cases hc : h.get? a with
  | none => simp
  | some c =>
    have hbound : h.Bound c := hk.bound hc
    have hname : c.name = a := hk a c hc
    simp only [List.any_eq_true, beq_iff_eq]
    constructor
    · rintro ⟨d, hd, hn⟩
      exact ⟨c, d, rfl, ((mem_ancestors_iff hk hbound).1 hd).1, hn⟩
    · rintro ⟨c', d, hc', hreach, rfl⟩
      cases hc'
      have hdc : d.name ≠ c.name := fun heq => hne (hname.symm.trans heq.symm)
      exact ⟨d, (mem_ancestors_iff hk hbound).2 ⟨hreach, hdc⟩, rfl⟩

/-- No class is above itself. -/
def Acyclic (h : Hierarchy) : Prop := ∀ c, h.Bound c → ¬ TransGen h.Extends c c

/-- Where the chain does not come back to the class its ancestors are those of the superclass,
behind it. -/
theorem ancestors_eq_cons_of_unreachable {c s : ClassInfo} (hs : h.Extends c s)
    (hnever : ∀ d, ReflTransGen h.Extends s d → d.name ≠ c.name) :
    h.ancestors c = s :: h.ancestors s := by
  have habove : h.Walked [s.name] (h.superclass? s) (h.ancestors s) := walked_above _ _
  have hrest : h.Walked [s.name, c.name] (h.superclass? s) (h.ancestors s) := by
    refine habove.of_seen_subset (by simp) fun d hd => ?_
    obtain ⟨t, ht, hreach⟩ := habove.reachable hd
    have hds : d.name ∉ [s.name] := habove.name_not_mem hd
    have hdc : d.name ≠ c.name := hnever d (.head ht hreach)
    simp_all
  have hwalk : h.Walked [c.name] (h.superclass? c) (h.ancestors c) := walked_above _ _
  have hsuper : h.superclass? c = some s := hs
  rw [hsuper] at hwalk
  exact hwalk.unique (.on (by simpa using hnever s .refl) hrest)

/-- Without circles the ancestors are those of the superclass, behind it. -/
theorem ancestors_eq_cons (hk : h.Keyed) (ha : h.Acyclic) {c s : ClassInfo} (hc : h.Bound c)
    (hs : h.Extends c s) : h.ancestors c = s :: h.ancestors s := by
  refine ancestors_eq_cons_of_unreachable hs fun d hreach hn => ?_
  have hcd : TransGen h.Extends c d := TransGen.head' hs hreach
  have heq : d = c := (hk.bound_of_transGen hcd).eq_of_name_eq hc hn
  exact ha c hc (heq ▸ hcd)

lemma ancestors_eq_nil {c : ClassInfo} (hs : h.superclass? c = none) : h.ancestors c = [] := by
  rw [ancestors, hs, walk_none]

/-- Induction from the topmost class down. -/
theorem Acyclic.induction (ha : h.Acyclic) (hk : h.Keyed) {P : ClassInfo → Prop}
    (root : ∀ c, h.Bound c → h.superclass? c = none → P c)
    (down : ∀ c s, h.Bound c → h.Extends c s → P s → P c) {c : ClassInfo} (hc : h.Bound c) :
    P c := by
  -- the ancestors of the superclass are the tail of those of the class
  induction hl : h.ancestors c generalizing c with
  | nil =>
    cases hs : h.superclass? c with
    | none => exact root c hc hs
    | some s =>
      rw [ancestors_eq_cons hk ha hc hs] at hl
      cases hl
  | cons s l ih =>
    cases hs : h.superclass? c with
    | none =>
      rw [ancestors_eq_nil hs] at hl
      cases hl
    | some t =>
      rw [ancestors_eq_cons hk ha hc hs] at hl
      have htail : h.ancestors t = l := (List.cons.inj hl).2
      exact down c t hc hs (ih (hk.bound_of_extends hs) htail)

end MiniJava.Hierarchy
