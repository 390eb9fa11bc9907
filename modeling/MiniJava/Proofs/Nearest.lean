import Mathlib.Data.Nat.Find
import MiniJava.Proofs.Ancestors
import MiniJava.Proofs.FirstWins
import MiniJava.Proofs.Lookup

/-!
# The nearest class

A search up the superclasses of a class finds what the nearest class has, counted in steps. This
holds in circles as well, where the walks from a class and from its superclass are different lists:
what one of them leaves out is never the class that is looked for. So a method that a class does not
declare is the one that is found from its superclass. The same is said once more of the classes as
they stand in the text of a program.
-/

namespace MiniJava

open Relation

/-- Of all that is met on the way up from `c`, the first for which `Has` holds is `d`, after `n`
steps. -/
structure FirstUp {α : Type} (climb : Nat → α → Option α) (Has : α → Prop) (c : α) (n : Nat)
    (d : α) : Prop where
  met : climb n c = some d
  has : Has d
  least : ∀ k e, climb k c = some e → Has e → n ≤ k

namespace FirstUp

variable {α : Type} {climb : Nat → α → Option α} {Has : α → Prop} {c d e : α} {m n : Nat}

lemma unique (hd : FirstUp climb Has c m d) (he : FirstUp climb Has c n e) : d = e := by
  have hmn : m = n :=
    Nat.le_antisymm (hd.least n e he.met he.has) (he.least m d hd.met hd.has)
  subst hmn
  exact Option.some.inj (hd.met.symm.trans he.met)

/-- It is enough to look at what is met before. -/
lemma of_forall_lt (hmet : climb n c = some d) (hhas : Has d)
    (hbefore : ∀ k < n, ∀ e ∈ climb k c, ¬ Has e) : FirstUp climb Has c n d where
  met := hmet
  has := hhas
  least k e hk he := not_lt.1 fun hlt => hbefore k hlt e hk he

lemma exists_of_met (hmet : climb m c = some e) (he : Has e) : ∃ n d, FirstUp climb Has c n d := by
  classical
  have hex : ∃ n d, climb n c = some d ∧ Has d := ⟨m, e, hmet, he⟩
  obtain ⟨d, hd, hhas⟩ := Nat.find_spec hex
  exact ⟨Nat.find hex, d, hd, hhas, fun k e hk he => Nat.find_min' hex ⟨e, hk, he⟩⟩

/-- A search through a list finds what the nearest one has, if the list shows only what is met on
the way up, at its step, and shows all of that, there or earlier. -/
theorem findSome?_iff {β : Type} {f : α → Option β} {l : List α}
    (hmet : ∀ n d, l[n]? = some d → climb n c = some d)
    (hshown : ∀ n d, climb n c = some d → ∃ i ≤ n, l[i]? = some d) (x : β) :
    l.findSome? f = some x ↔
      ∃ n d, FirstUp climb (fun e => (f e).isSome) c n d ∧ f d = some x := by
  have hfirst : ∀ y, l.findSome? f = some y →
      ∃ n d, FirstUp climb (fun e => (f e).isSome) c n d ∧ f d = some y := by
    intro y hy
    obtain ⟨before, d, after, rfl, hd, hnone⟩ := List.findSome?_eq_some_iff.1 hy
    refine ⟨before.length, d, ⟨hmet _ _ (by simp), by simp [hd], ?_⟩, hd⟩
    intro k e hk he
    obtain ⟨i, hik, hi⟩ := hshown k e hk
    -- what stands before `d` has nothing
    by_contra hlt
    have hmem : e ∈ before := by
      rw [List.getElem?_append_left (by omega)] at hi
      exact List.mem_of_getElem? hi
    simp [hnone e hmem] at he
  constructor
  · exact hfirst x
  · rintro ⟨n, d, hd, hx⟩
    obtain ⟨i, _, hi⟩ := hshown n d hd.met
    have hsome : (l.findSome? f).isSome = true :=
      List.findSome?_isSome_iff.2 ⟨d, List.mem_of_getElem? hi, hd.has⟩
    obtain ⟨y, hy⟩ := Option.isSome_iff_exists.1 hsome
    obtain ⟨_, e, he, hey⟩ := hfirst y hy
    rw [hd.unique he, hey] at hx
    rw [hy, hx]

end FirstUp

namespace Hierarchy

variable {h : Hierarchy}

lemma reachable_iff_climb {c d : ClassInfo} :
    ReflTransGen h.Extends c d ↔ ∃ n, h.climb n c = some d := by
  constructor
  · intro hcd
    induction hcd using ReflTransGen.head_induction_on with
    | refl => exact ⟨0, rfl⟩
    | @head c s hs _ ih =>
      obtain ⟨n, hn⟩ := ih
      have hsuper : h.superclass? c = some s := hs
      exact ⟨n + 1, by rw [climb, hsuper, Option.bind_some, hn]⟩
  · rintro ⟨n, hn⟩
    induction n generalizing c with
    | zero =>
      cases hn
      exact .refl
    | succ n ih =>
      obtain ⟨s, hs, hsd⟩ := Option.bind_eq_some_iff.1 hn
      exact .head hs (ih hsd)

/-- What is met after some steps stands in the walk, and no later than after so many. -/
lemma exists_index_of_climb (hk : h.Keyed) {c d : ClassInfo} (hc : h.Bound c) {n : Nat}
    (hn : h.climb n c = some d) : ∃ i ≤ n, (c :: h.ancestors c)[i]? = some d := by
  rcases reflTransGen_iff_eq_or_transGen.1 (reachable_iff_climb.2 ⟨n, hn⟩) with rfl | hcd
  · exact ⟨0, n.zero_le, rfl⟩
  by_cases hname : d.name = c.name
  · -- the chain came back to the class
    obtain rfl : d = c := (hk.bound_of_transGen hcd).eq_of_name_eq hc hname
    exact ⟨0, n.zero_le, rfl⟩
  · have hmem : d ∈ h.ancestors c := (mem_ancestors_iff hk hc).2 ⟨hcd, hname⟩
    obtain ⟨i, hi⟩ := List.mem_iff_getElem?.1 hmem
    have hpos : 0 < n := by
      apply Nat.pos_of_ne_zero
      rintro rfl
      exact hname (congrArg ClassInfo.name (Option.some.inj hn)).symm
    exact ⟨i + 1, (isLeast_climb hi).2 ⟨hpos, hn⟩, hi⟩

variable {α : Type} {f : ClassInfo → Option α}

/-- A search up the walk finds what the nearest class has. -/
theorem findSome?_walk_iff (hk : h.Keyed) {c : ClassInfo} (hc : h.Bound c) (x : α) :
    (c :: h.ancestors c).findSome? f = some x ↔
      ∃ n d, FirstUp h.climb (fun e => (f e).isSome) c n d ∧ f d = some x :=
  FirstUp.findSome?_iff (fun _ _ => climb_of_isChain (h.isChain_ancestors c))
    (fun _ _ => exists_index_of_climb hk hc) x

lemma findSome?_walk_eq_none_iff (hk : h.Keyed) {c : ClassInfo} (hc : h.Bound c) :
    (c :: h.ancestors c).findSome? f = none ↔ ∀ d, ReflTransGen h.Extends c d → f d = none := by
  rw [List.findSome?_eq_none_iff]
  constructor
  · intro hnone d hcd
    obtain ⟨n, hn⟩ := reachable_iff_climb.1 hcd
    obtain ⟨i, _, hi⟩ := exists_index_of_climb hk hc hn
    exact hnone d (List.mem_of_getElem? hi)
  · intro hnone d hd
    obtain ⟨i, hi⟩ := List.mem_iff_getElem?.1 hd
    exact hnone d (reachable_iff_climb.2 ⟨i, climb_of_isChain (h.isChain_ancestors c) hi⟩)

/-- From a class that has nothing the search goes on one step up. -/
lemma firstUp_succ_iff {Has : ClassInfo → Prop} {c s d : ClassInfo} (hs : h.Extends c s)
    (hc : ¬ Has c) : (∃ n, FirstUp h.climb Has c n d) ↔ ∃ n, FirstUp h.climb Has s n d := by
  have hstep : ∀ n, h.climb (n + 1) c = h.climb n s := by
    intro n
    have hsuper : h.superclass? c = some s := hs
    rw [climb, hsuper, Option.bind_some]
  constructor
  · rintro ⟨n, hd⟩
    cases n with
    | zero =>
      cases hd.met
      exact absurd hd.has hc
    | succ n =>
      refine ⟨n, (hstep n).symm.trans hd.met, hd.has, fun k e hke he => ?_⟩
      have hle := hd.least (k + 1) e ((hstep k).trans hke) he
      omega
  · rintro ⟨n, hd⟩
    refine ⟨n + 1, (hstep n).trans hd.met, hd.has, fun k e hke he => ?_⟩
    cases k with
    | zero =>
      cases hke
      exact absurd he hc
    | succ k =>
      have hle := hd.least k e ((hstep k).symm.trans hke) he
      omega

/-- Also in a circle, the walks from a class that has nothing and from its superclass come to the
same. -/
theorem findSome?_walk_of_extends (hk : h.Keyed) {c s : ClassInfo} (hc : h.Bound c)
    (hs : h.Extends c s) (hnone : f c = none) :
    (c :: h.ancestors c).findSome? f = (s :: h.ancestors s).findSome? f := by
  have hup : ∀ d, (∃ n, FirstUp h.climb (fun e => (f e).isSome) c n d) ↔
      ∃ n, FirstUp h.climb (fun e => (f e).isSome) s n d :=
    fun d => firstUp_succ_iff hs (by simp [hnone])
  apply Option.ext
  intro x
  rw [findSome?_walk_iff hk hc, findSome?_walk_iff hk (hk.bound_of_extends hs)]
  constructor
  · rintro ⟨n, d, hd, hx⟩
    obtain ⟨k, hd⟩ := (hup d).1 ⟨n, hd⟩
    exact ⟨k, d, hd, hx⟩
  · rintro ⟨n, d, hd, hx⟩
    obtain ⟨k, hd⟩ := (hup d).2 ⟨n, hd⟩
    exact ⟨k, d, hd, hx⟩

lemma not_mem_methodNames_iff (c : ClassInfo) (m : String) :
    m ∉ c.methods.names ↔ c.methods.get? m = none := by
  rw [← Bindings.get?_isSome_iff, Bool.not_eq_true, Option.isSome_eq_false_iff,
    Option.isNone_iff_eq_none]

/-- A class has the methods that it does not declare from its superclass. -/
lemma findMethod?_of_superName (hk : h.Keyed) {name m s : String} {c : ClassInfo}
    (hc : h.get? name = some c) (hm : m ∉ c.methods.names) (hs : c.superName = some s) :
    h.findMethod? name m = h.findMethod? s m := by
  rw [not_mem_methodNames_iff] at hm
  rw [findMethod?_eq, findMethod?_eq, hc, Option.bind_some]
  cases hget : h.get? s with
  | none =>
    -- the chain ends here, and an unknown class has no methods
    have hsuper : h.superclass? c = none := by rw [superclass?, hs, Option.bind_some, hget]
    rw [ancestors_eq_nil hsuper, List.findSome?_singleton, hm]
    rfl
  | some d =>
    have hsuper : h.superclass? c = some d := by rw [superclass?, hs, Option.bind_some, hget]
    exact findSome?_walk_of_extends hk (hk.bound hc) hsuper hm

/-- Where every name stands for a class of that name, the superclasses in a circle or not: no method
is found exactly if there is no such class or none of the classes up the chain declares one, and
otherwise it is that of the class that takes the fewest steps. A class that does not declare the
method has it from its superclass. -/
theorem method_found_nearest {h : Hierarchy} (hk : h.Keyed) (name m : String) :
    (h.findMethod? name m = none ↔ h.get? name = none ∨
      ∃ c, h.get? name = some c ∧ ∀ d, ReflTransGen h.Extends c d → m ∉ d.methods.names) ∧
    (∀ i, h.findMethod? name m = some i ↔
      ∃ c, h.get? name = some c ∧ ∃ n d, FirstUp h.climb (fun e => m ∈ e.methods.names) c n d ∧
        d.methods.get? m = some i) ∧
    ∀ c s, h.get? name = some c → m ∉ c.methods.names → c.superName = some s →
      h.findMethod? name m = h.findMethod? s m := by
  refine ⟨?_, ?_, fun c s => findMethod?_of_superName hk⟩
  · rw [findMethod?_eq]
    cases hc : h.get? name with
    | none => simp
    | some c =>
      simp only [Option.bind_some, findSome?_walk_eq_none_iff hk (hk.bound hc), reduceCtorEq,
        false_or, Option.some.injEq, exists_eq_left', not_mem_methodNames_iff]
  · intro i
    rw [findMethod?_eq]
    cases hc : h.get? name with
    | none => simp
    | some c =>
      simp only [Option.bind_some, findSome?_walk_iff hk (hk.bound hc), Option.some.injEq,
        exists_eq_left', Bindings.get?_isSome_iff]

/-- A class without fields, and with one method without parameters. -/
def single (number : Nat) (name superName method : String) (t : Ty) : ClassInfo where
  name := name
  superName := some superName
  origin := .synthetic number
  methods := ⟨[(method, ⟨method, t, .synthetic number, .empty, .empty⟩)], by simp⟩

/-- Three classes in a circle, one of them in the outer layer, with a method each. -/
def ring : Hierarchy where
  own := ⟨[("A", single 0 "A" "B" "f" .int), ("B", single 1 "B" "C" "g" .boolean)], by decide⟩
  outer := [⟨[("C", single 2 "C" "A" "h" .intArray)], by decide⟩]

lemma keyed_ring : ring.Keyed := keyed_of_layers (by decide)

/-- From `B` the method `f` of `A` is found across `C`, two steps up, and it is the one that is
found from `C`. No class has a method `k`. -/
theorem method_found_nearest_ring :
    ring.Keyed ∧ ring.findMethod? "B" "k" = none ∧
    ring.findMethod? "B" "f" = some ⟨"f", .int, .synthetic 0, .empty, .empty⟩ ∧
    ring.findMethod? "B" "f" = ring.findMethod? "C" "f" := by
  have hfirst : FirstUp ring.climb (fun e => "f" ∈ e.methods.names)
      (single 1 "B" "C" "g" .boolean) 2 (single 0 "A" "B" "f" .int) :=
    .of_forall_lt rfl (by decide) (by decide)
  have hnone : ∀ d, ReflTransGen ring.Extends (single 1 "B" "C" "g" .boolean) d →
      "k" ∉ d.methods.names := by
    intro d hd
    have hcircle : d ∈ [single 0 "A" "B" "f" .int, single 1 "B" "C" "g" .boolean,
        single 2 "C" "A" "h" .intArray] := by
      induction hd with
      | refl => simp
      | tail _ hlast ih =>
        simp only [List.mem_cons, List.not_mem_nil, or_false] at ih
        rcases ih with rfl | rfl | rfl <;> cases hlast <;> simp
    simp only [List.mem_cons, List.not_mem_nil, or_false] at hcircle
    rcases hcircle with rfl | rfl | rfl <;> decide
  obtain ⟨hmissing, _, _⟩ := method_found_nearest keyed_ring "B" "k"
  obtain ⟨_, hfound, hup⟩ := method_found_nearest keyed_ring "B" "f"
  exact ⟨keyed_ring, hmissing.2 (.inr ⟨_, rfl, hnone⟩), (hfound _).2 ⟨_, rfl, 2, _, hfirst, rfl⟩,
    hup _ "C" rfl (by decide) rfl⟩

end Hierarchy

/-! ### Classes in the text of a program -/

/-- The type that the first declaration of a name gives it. -/
def VarDecl.firstType? (x : String) (ds : List VarDecl) : Option Ty :=
  (ds.find? fun d => d.name = x).map VarDecl.ty

lemma VarDecl.firstType?_isSome_iff (x : String) (ds : List VarDecl) :
    (firstType? x ds).isSome = true ↔ x ∈ ds.map VarDecl.name := by
  simp [firstType?]

namespace MethodDecl

/-- Inside a method a name is the first formal of that name, or else the first local. -/
lemma get?_scope (m : MethodDecl) (x : String) : m.info.1.scope.get? x =
    (VarDecl.firstType? x m.formals).or (VarDecl.firstType? x m.locals) := by
  have hparams : m.info.1.params.get? x = VarDecl.firstType? x m.formals := by
    rw [Bindings.get?, m.params_entries, lookup_firsts, if_neg List.not_mem_nil]
    rfl
  have hlocals : m.info.1.locals.get? x = if x ∈ m.formals.map VarDecl.name then none
      else VarDecl.firstType? x m.locals := by
    rw [Bindings.get?, m.locals_entries, lookup_firsts]
    rfl
  rw [MethodInfo.get?_scope, hparams, hlocals]
  -- of the locals only those are known that no formal is called like
  by_cases hx : x ∈ m.formals.map VarDecl.name
  · obtain ⟨t, ht⟩ := Option.isSome_iff_exists.1 ((VarDecl.firstType?_isSome_iff x m.formals).2 hx)
    rw [if_pos hx, ht]
    rfl
  · have hnone : VarDecl.firstType? x m.formals = none := by
      rw [← Option.not_isSome_iff_eq_none, VarDecl.firstType?_isSome_iff]
      exact hx
    rw [if_neg hx, hnone, Option.or_none, Option.none_or]

end MethodDecl

namespace ClassDecl

lemma get?_fields (c : ClassDecl) (x : String) :
    c.info.1.fields.get? x = VarDecl.firstType? x c.fields := by
  rw [Bindings.get?, c.entries_fields_firsts, lookup_firsts, if_neg List.not_mem_nil]
  rfl

lemma get?_methods (c : ClassDecl) (name : String) : c.info.1.methods.get? name =
    (c.methods.find? fun m => m.name = name).map fun m => m.info.1 := by
  rw [Bindings.get?, c.entries_methods_firsts,
    lookup_firsts (fun m : MethodDecl => m.info.1), if_neg List.not_mem_nil]

end ClassDecl

namespace TopDecl

def superName : TopDecl → Option String
  | main _ => none
  | ordinary d => d.superName

/-- The main class has no fields. -/
def fields : TopDecl → List VarDecl
  | main _ => []
  | ordinary d => d.fields

def methodNames : TopDecl → List String
  | main _ => [mainMethod]
  | ordinary d => d.methods.map MethodDecl.name

lemma get?_fields (d : TopDecl) (x : String) :
    d.info.fields.get? x = VarDecl.firstType? x d.fields := by
  cases d with
  | main m => rfl
  | ordinary c => exact c.get?_fields x

lemma mem_methodNames_iff (d : TopDecl) (name : String) :
    name ∈ d.info.methods.names ↔ name ∈ d.methodNames := by
  cases d with
  | main m => rfl
  | ordinary c =>
    rw [← Bindings.get?_isSome_iff, info, c.get?_methods]
    simp [methodNames]

end TopDecl

namespace Program

variable {p : Program}

/-- The class that a name stands for is the first of that name. -/
def classNamed? (p : Program) (name : String) : Option TopDecl :=
  p.topDecls.find? fun d => d.name = name

/-- The class `n` steps up the chain of superclasses. -/
def climb (p : Program) : Nat → TopDecl → Option TopDecl
  | 0, d => some d
  | n + 1, d => (d.superName.bind p.classNamed?).bind (p.climb n)

lemma get?_hierarchy_eq (p : Program) (name : String) :
    p.hierarchy.get? name = (p.classNamed? name).map TopDecl.info := by
  have hentries : p.hierarchy.own.entries =
      (firsts [] TopDecl.name p.topDecls).map fun d => (d.name, d.info) :=
    Hierarchy.entries_collect .empty p
  rw [get?_hierarchy, Bindings.get?, hentries, lookup_firsts, if_neg List.not_mem_nil, classNamed?]

lemma climb_info (p : Program) (n : Nat) (d : TopDecl) :
    p.hierarchy.climb n d.info = (p.climb n d).map TopDecl.info := by
  induction n generalizing d with
  | zero => rfl
  | succ n ih =>
    have hname : d.info.superName = d.superName := by cases d <;> rfl
    rw [Hierarchy.climb, climb, Hierarchy.superclass?, hname]
    cases d.superName with
    | none => rfl
    | some s =>
      rw [Option.bind_some, Option.bind_some, get?_hierarchy_eq]
      cases p.classNamed? s with
      | none => rfl
      | some e => exact ih e

/-- The nearest class of the hierarchy is the nearest class of the text. -/
lemma firstUp_info_iff {Has : TopDecl → Prop} {Has' : ClassInfo → Prop}
    (hHas : ∀ d, Has' d.info ↔ Has d) {d : TopDecl} {n : Nat} {c : ClassInfo} :
    FirstUp p.hierarchy.climb Has' d.info n c ↔ ∃ e, FirstUp p.climb Has d n e ∧ e.info = c := by
  have hmet : ∀ k b, p.hierarchy.climb k d.info = some b ↔
      ∃ e, p.climb k d = some e ∧ e.info = b := by
    intro k b
    rw [climb_info, Option.map_eq_some_iff]
  constructor
  · rintro ⟨hn, hc, hleast⟩
    obtain ⟨e, he, rfl⟩ := (hmet n c).1 hn
    refine ⟨e, ⟨he, (hHas e).1 hc, fun k b hb hasb => ?_⟩, rfl⟩
    exact hleast k b.info ((hmet k _).2 ⟨b, hb, rfl⟩) ((hHas b).2 hasb)
  · rintro ⟨e, ⟨hn, he, hleast⟩, rfl⟩
    refine ⟨(hmet n _).2 ⟨e, hn, rfl⟩, (hHas e).2 he, fun k b hb hasb => ?_⟩
    obtain ⟨b, hkb, rfl⟩ := (hmet k b).1 hb
    exact hleast k b hkb ((hHas b).1 hasb)

/-- A search up the chain of a class ends at the nearest class of the text that has what is looked
for. -/
theorem findSome?_walk_info_iff {α : Type} {f : ClassInfo → Option α} {Has : TopDecl → Prop}
    (hHas : ∀ d, (f d.info).isSome = true ↔ Has d) {s : TopDecl} (hs : p.hierarchy.Bound s.info)
    (x : α) :
    (s.info :: p.hierarchy.ancestors s.info).findSome? f = some x ↔
      ∃ n d, FirstUp p.climb Has s n d ∧ f d.info = some x := by
  rw [Hierarchy.findSome?_walk_iff p.hierarchy_keyed hs]
  constructor
  · rintro ⟨n, c, hc, hx⟩
    obtain ⟨d, hd, rfl⟩ := (firstUp_info_iff hHas).1 hc
    exact ⟨n, d, hd, hx⟩
  · rintro ⟨n, d, hd, hx⟩
    exact ⟨n, d.info, (firstUp_info_iff hHas).2 ⟨d, hd, rfl⟩, hx⟩

end Program

end MiniJava
