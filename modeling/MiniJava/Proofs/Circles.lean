import Mathlib.Data.List.Flatten
import MiniJava.Proofs.Live
import MiniJava.Proofs.Reasons

/-!
# Circles of superclasses

A class is told to be in a circle exactly if the chain of superclasses from it comes back to it; a
class from which a chain leads into a circle is not. Nothing else in a check tells of circles. Where
neither a circle nor an unknown superclass is told, the chain from every class ends at one that has
no superclass.
-/

namespace MiniJava

open Relation

/-! ### Kinds of findings -/

/-- Each of the diagnostics is of one of the kinds. -/
def OfKinds (kinds : List Kind) (ds : List Diagnostic) : Prop := ∀ d ∈ ds, d.issue.kind ∈ kinds

namespace OfKinds

variable {kinds : List Kind}

lemma nil : OfKinds kinds [] := by simp [OfKinds]

lemma single {d : Diagnostic} (k : Kind) (hd : d.issue.kind = k) (hk : k ∈ kinds) :
    OfKinds kinds [d] := by
  simpa [OfKinds, hd] using hk

lemma append {ds es : List Diagnostic} (hds : OfKinds kinds ds) (hes : OfKinds kinds es) :
    OfKinds kinds (ds ++ es) :=
  List.forall_mem_append.2 ⟨hds, hes⟩

lemma flatMap {δ : Type} {f : δ → List Diagnostic} {l : List δ}
    (hf : ∀ x ∈ l, OfKinds kinds (f x)) : OfKinds kinds (l.flatMap f) := by
  intro d hd
  obtain ⟨x, hx, hd⟩ := List.mem_flatMap.1 hd
  exact hf x hx d hd

lemma single_unless {b : Bool} {d : Diagnostic} (k : Kind) (hd : d.issue.kind = k)
    (hk : k ∈ kinds) : OfKinds kinds (if b then [] else [d]) := by
  cases b
  · exact single k hd hk
  · exact nil

lemma gather {σ δ : Type} {step : σ → δ → σ × List Diagnostic}
    (hstep : ∀ s d, OfKinds kinds (step s d).2) (s : σ) (ds : List δ) :
    OfKinds kinds (MiniJava.gather step s ds).2 := by
  induction ds generalizing s with
  | nil => exact nil
  | cons d ds ih => exact (hstep s d).append (ih _)

lemma filter_eq_nil {ds : List Diagnostic} (hds : OfKinds kinds ds) {k : Kind} (hk : k ∉ kinds) :
    ds.filter (·.issue.kind = k) = [] := by
  rw [List.filter_eq_nil_iff]
  intro d hd heq
  have hkind : d.issue.kind = k := by simpa using heq
  exact hk (hkind ▸ hds d hd)

end OfKinds

/-- The kinds of what may be found in code and in the types that declarations name. -/
def Kind.ofCode : List Kind :=
  [undefinedIdentifier, undefinedClass, undefinedMethod, arityMismatch, argumentTypeMismatch,
    typeMismatch, assignmentTypeMismatch, conditionTypeMismatch]

section Parts

variable {h : Hierarchy}

lemma kind_of_arises {i : Issue} (hi : i.Arises h) : i.kind ∈ Kind.ofCode := by
  cases hi <;> simp [Issue.kind, Kind.ofCode]

lemma ofKinds_of_arises {ds : List Diagnostic} (hds : ∀ d ∈ ds, d.issue.Arises h) :
    OfKinds Kind.ofCode ds :=
  fun d hd => kind_of_arises (hds d hd)

lemma ofKinds_overrideMismatches (d : ClassDecl) (owner : ClassInfo) (above : List ClassInfo) :
    OfKinds [.invalidOverride] (d.overrideMismatches owner above) := by
  refine .flatMap fun e _ => ?_
  cases above.findSome? (·.methods.get? e.1) with
  | none => exact .nil
  | some o => exact .single_unless .invalidOverride rfl (by decide)

lemma ofKinds_declare {α : Type} (b : Bindings α) (name : String) (value : α) (line : Line) :
    OfKinds [.duplicateDefinition] (b.declare name value line).2 := by
  unfold Bindings.declare
  cases b.put name value with
  | ok _ => exact .nil
  | error _ => exact .single .duplicateDefinition rfl (by decide)

lemma ofKinds_methodInfo (m : MethodDecl) : OfKinds [.duplicateDefinition] m.info.2 := by
  refine OfKinds.append (.gather (fun b d => ofKinds_declare b _ _ _) _ _) (.gather ?_ _ _)
  intro b d
  unfold Bindings.declareLocal
  by_cases hd : (gather Bindings.declareVar .empty m.formals).1.contains d.name = true
  · rw [if_pos hd]
    exact .single .duplicateDefinition rfl (by decide)
  · rw [if_neg hd]
    exact ofKinds_declare b _ _ _

lemma ofKinds_classInfo (c : ClassDecl) : OfKinds [.duplicateDefinition] c.info.2 := by
  refine OfKinds.append (.gather (fun b d => ofKinds_declare b _ _ _) _ _) (.gather ?_ _ _)
  intro b m
  exact (ofKinds_declare b _ _ _).append (ofKinds_methodInfo m)

theorem ofKinds_collect (h : Hierarchy) (p : Program) :
    OfKinds [.duplicateDefinition] (h.collect p).2 := by
  refine OfKinds.append (ofKinds_declare _ _ _ _) (.gather ?_ _ _)
  intro h c
  exact (ofKinds_declare _ _ _ _).append (ofKinds_classInfo c)

end Parts

/-! ### Chains that end -/

namespace Hierarchy

variable {h : Hierarchy}

/-- What is above a class in a circle is in a circle. -/
lemma transGen_self_of_reachable {c d : ClassInfo} (hc : TransGen h.Extends c c)
    (hcd : ReflTransGen h.Extends c d) : TransGen h.Extends d d := by
  induction hcd with
  | refl => exact hc
  | tail _ hlast ih =>
    obtain ⟨e, he, hback⟩ := TransGen.head'_iff.1 ih
    rw [he.unique hlast] at hback
    exact TransGen.tail' hback hlast

/-- From every class the chain of superclasses ends at a class that has none, exactly if there is no
circle and every superclass is known. -/
theorem chains_end_iff (hk : h.Keyed) :
    (∀ c, h.Bound c → ∃ root, ReflTransGen h.Extends c root ∧ root.superName = none) ↔
      h.Acyclic ∧ ∀ c, h.Bound c → ∀ s, c.superName = some s → (h.get? s).isSome = true := by
  constructor
  · intro hends
    constructor
    · intro c hc hcircle
      obtain ⟨root, hroot, hnone⟩ := hends c hc
      obtain ⟨e, he, _⟩ := TransGen.head'_iff.1 (transGen_self_of_reachable hcircle hroot)
      rw [Extends, superclass?, hnone] at he
      cases he
    · intro c hc s hs
      obtain ⟨root, hroot, hnone⟩ := hends c hc
      rcases ReflTransGen.cases_head hroot with rfl | ⟨e, he, _⟩
      · rw [hs] at hnone
        cases hnone
      · rw [Extends, superclass?, hs, Option.bind_some] at he
        simp [he]
  · rintro ⟨ha, hclosed⟩ c hc
    refine ha.induction hk (P := fun c => ∃ root, ReflTransGen h.Extends c root ∧
      root.superName = none) ?_ ?_ hc
    · -- the chain stops here, and not for want of a known superclass
      intro c hc hroot
      refine ⟨c, .refl, ?_⟩
      cases hs : c.superName with
      | none => rfl
      | some s =>
        have hknown := hclosed c hc s hs
        rw [superclass?, hs, Option.bind_some] at hroot
        rw [hroot] at hknown
        cases hknown
    · rintro c s _ hs ⟨root, hroot, hnone⟩
      exact ⟨root, .head hs hroot, hnone⟩

lemma onCycle_of_superclass?_none {c : ClassInfo} (hs : h.superclass? c = none) :
    h.onCycle c = false := by
  rw [onCycle, hs, walk_none]
  rfl

end Hierarchy

/-! ### What is told of superclasses -/

namespace ClassDecl

/-- The class is known by its name, and the chain of superclasses comes back to that name. -/
def OnCircle (h : Hierarchy) (d : ClassDecl) : Prop :=
  ∃ owner e, d.live? h = some owner ∧ TransGen h.Extends owner e ∧ e.name = d.name

/-- What is told of the superclass, of a class that is known by its name. -/
def superFindings (h : Hierarchy) (d : ClassDecl) : List Diagnostic :=
  match d.live? h with
  | none => []
  | some owner => d.checkSuper h owner

lemma bound_of_live? {h : Hierarchy} (hk : h.Keyed) {d : ClassDecl} {owner : ClassInfo}
    (hlive : d.live? h = some owner) : owner.name = d.name ∧ h.Bound owner := by
  have hget : h.get? d.name = some owner := (Option.filter_eq_some_iff.1 hlive).1
  exact ⟨hk d.name owner hget, hk.bound hget⟩

lemma onCircle_iff {h : Hierarchy} (hk : h.Keyed) (d : ClassDecl) :
    (d.live? h).any h.onCycle = true ↔ d.OnCircle h := by
  unfold OnCircle
  cases hlive : d.live? h with
  | none => simp
  | some owner =>
    obtain ⟨hname, hbound⟩ := bound_of_live? hk hlive
    rw [Option.any_some, Hierarchy.onCycle_iff hk hbound]
    constructor
    · intro hcircle
      exact ⟨owner, owner, rfl, hcircle, hname⟩
    · rintro ⟨_, e, howner, hreach, he⟩
      cases howner
      have heq := (hk.bound_of_transGen hreach).eq_of_name_eq hbound (he.trans hname.symm)
      exact heq ▸ hreach

lemma circles_checkSuper {h : Hierarchy} {d : ClassDecl} {owner : ClassInfo}
    (hsuper : owner.superName = d.superName) :
    (d.checkSuper h owner).filter (·.issue.kind = .cyclicInheritance) =
      if h.onCycle owner then [⟨.cyclicInheritance d.name, d.line⟩] else [] := by
  unfold checkSuper
  cases hs : d.superName with
  | none =>
    have hnone : h.superclass? owner = none := by simp [Hierarchy.superclass?, hsuper, hs]
    simp [Hierarchy.onCycle_of_superclass?_none hnone]
  | some s =>
    cases hget : h.get? s with
    | none =>
      have hnone : h.superclass? owner = none := by simp [Hierarchy.superclass?, hsuper, hs, hget]
      simp [hget, Hierarchy.onCycle_of_superclass?_none hnone, Issue.kind]
    | some e => cases h.onCycle owner <;> simp [hget, Issue.kind]

lemma circles_findings (h : Hierarchy) (d : ClassDecl) :
    (d.freshFindings h).filter (·.issue.kind = .cyclicInheritance) =
      (d.superFindings h).filter (·.issue.kind = .cyclicInheritance) := by
  unfold freshFindings superFindings
  cases d.live? h with
  | none => rfl
  | some owner =>
    have hfields : OfKinds Kind.ofCode (d.fields.flatMap (·.undeclared h)) :=
      .flatMap fun f _ => ofKinds_of_arises (arises_undeclared f.ty f.line)
    have hmethods : OfKinds Kind.ofCode
        (d.methods.flatMap (·.findings h (Context.inClass h ⟨owner, .empty⟩))) :=
      .flatMap fun m _ => ofKinds_of_arises (arises_methodFindings _ m)
    have hoverrides := ofKinds_overrideMismatches d owner (h.ancestors owner)
    change (d.findings h ⟨owner, .empty⟩).filter _ = (d.checkSuper h owner).filter _
    -- only the part about the superclass can tell of a circle
    rw [findings, List.filter_append, List.filter_append, List.filter_append,
      hfields.filter_eq_nil (by decide), hmethods.filter_eq_nil (by decide),
      hoverrides.filter_eq_nil (by decide), List.append_nil, List.append_nil, List.append_nil]

lemma superFindings_sublist (h : Hierarchy) (d : ClassDecl) :
    (d.superFindings h).Sublist (d.freshFindings h) := by
  unfold freshFindings superFindings
  cases d.live? h with
  | none => exact List.Sublist.refl _
  | some owner =>
    simp only [findings, List.append_assoc]
    exact List.sublist_append_left _ _

end ClassDecl

namespace Program

variable {p : Program}

/-- What is told of the superclasses of a program. -/
def superFindings (p : Program) : List Diagnostic :=
  p.classes.flatMap (·.superFindings p.hierarchy)

instance (p : Program) : DecidablePred (ClassDecl.OnCircle p.hierarchy) := fun d =>
  decidable_of_iff _ (ClassDecl.onCircle_iff p.hierarchy_keyed d)

lemma circles_superFindings (hp : p.IdentifiedByNumber) {d : ClassDecl} (hd : d ∈ p.classes) :
    (d.superFindings p.hierarchy).filter (·.issue.kind = .cyclicInheritance) =
      if d.OnCircle p.hierarchy then [⟨.cyclicInheritance d.name, d.line⟩] else [] := by
  have hcircle := ClassDecl.onCircle_iff p.hierarchy_keyed d
  unfold ClassDecl.superFindings
  cases hlive : d.live? p.hierarchy with
  | none =>
    rw [hlive] at hcircle
    rw [if_neg fun hon => by simpa using hcircle.2 hon]
    rfl
  | some owner =>
    obtain ⟨_, rfl⟩ := (live?_eq_some_iff hp hd owner).1 hlive
    rw [hlive, Option.any_some] at hcircle
    have hsuper : d.info.1.superName = d.superName := rfl
    simp only [ClassDecl.circles_checkSuper hsuper, hcircle]

/-- The circles that are told are those of the classes in them, in order. -/
theorem circles_findings_eq (hp : p.IdentifiedByNumber) :
    p.findings.filter (·.issue.kind = .cyclicInheritance) =
      (p.classes.filter (·.OnCircle p.hierarchy)).map fun d =>
        ⟨.cyclicInheritance d.name, d.line⟩ := by
  have hcollect := ofKinds_collect .empty p
  have hmain : OfKinds Kind.ofCode (p.main.body.check p.hierarchy p.mainContext) :=
    ofKinds_of_arises (arises_check _)
  rw [findings, List.filter_append, List.filter_append, hcollect.filter_eq_nil (by decide),
    hmain.filter_eq_nil (by decide), List.nil_append, List.nil_append, List.filter_flatMap]
  have hclasses : ∀ d ∈ p.classes,
      (d.freshFindings p.hierarchy).filter (·.issue.kind = .cyclicInheritance) =
        if d.OnCircle p.hierarchy then [⟨.cyclicInheritance d.name, d.line⟩] else [] := by
    intro d hd
    rw [ClassDecl.circles_findings, circles_superFindings hp hd]
  rw [List.flatMap_congr hclasses]
  generalize p.classes = ds
  induction ds with
  | nil => rfl
  | cons d ds ih =>
    rw [List.flatMap_cons, ih, List.filter_cons]
    by_cases hon : d.OnCircle p.hierarchy <;> simp [hon]

lemma live?_of_mem_liveClasses (hp : p.IdentifiedByNumber) {d : ClassDecl}
    (hd : d ∈ p.liveClasses) : d.live? p.hierarchy = some d.info.1 :=
  (live?_eq_some_iff hp (mem_of_mem_firsts hd) _).2 ⟨hd, rfl⟩

/-- A class that the hierarchy knows is above itself exactly if a declaration of its name is in a
circle. -/
lemma exists_onCircle_iff (hp : p.IdentifiedByNumber) {c : ClassInfo} (hc : p.hierarchy.Bound c) :
    (∃ d ∈ p.classes, d.OnCircle p.hierarchy ∧ d.name = c.name) ↔
      TransGen p.hierarchy.Extends c c := by
  have hk := p.hierarchy_keyed
  constructor
  · rintro ⟨d, _, ⟨owner, e, hlive, hreach, he⟩, hname⟩
    obtain ⟨howner, hbound⟩ := ClassDecl.bound_of_live? hk hlive
    obtain rfl : owner = c := hbound.eq_of_name_eq hc (howner.trans hname)
    obtain rfl : e = owner := (hk.bound_of_transGen hreach).eq_of_name_eq hc (he.trans hname)
    exact hreach
  · intro hcircle
    rcases (get?_hierarchy_iff_live p _ c).1 hc with ⟨_, rfl⟩ | ⟨d, hd, hname, rfl⟩
    · -- the main class has no superclass
      obtain ⟨e, he, _⟩ := TransGen.head'_iff.1 hcircle
      cases he
    · exact ⟨d, mem_of_mem_firsts hd,
        ⟨_, _, live?_of_mem_liveClasses hp hd, hcircle, rfl⟩, hname⟩

lemma acyclic_iff (hp : p.IdentifiedByNumber) :
    p.hierarchy.Acyclic ↔ ∀ d ∈ p.classes, ¬ d.OnCircle p.hierarchy := by
  constructor
  · intro ha d hd hon
    have ⟨owner, _, hlive, _⟩ := hon
    obtain ⟨hname, hbound⟩ := ClassDecl.bound_of_live? p.hierarchy_keyed hlive
    exact ha owner hbound ((exists_onCircle_iff hp hbound).1 ⟨d, hd, hon, hname.symm⟩)
  · intro hnone c hc hcircle
    obtain ⟨d, hd, hon, _⟩ := (exists_onCircle_iff hp hc).2 hcircle
    exact hnone d hd hon

/-- No superclass is told to be unknown exactly if every class has a known one or none. -/
lemma supers_known_iff (hp : p.IdentifiedByNumber) :
    (∀ x ∈ p.superFindings, x.issue.kind ≠ .undefinedClass) ↔
      ∀ c, p.hierarchy.Bound c → ∀ s, c.superName = some s →
        (p.hierarchy.get? s).isSome = true := by
  constructor
  · intro hnone c hc s hs
    rcases (get?_hierarchy_iff_live p _ c).1 hc with ⟨_, rfl⟩ | ⟨d, hd, _, rfl⟩
    · cases hs
    · by_contra hunknown
      have htold : d.superFindings p.hierarchy = [⟨.undefinedClass s, d.line⟩] := by
        have hsuper : d.superName = some s := hs
        have hget : p.hierarchy.get? s = none := by simpa using hunknown
        simp [ClassDecl.superFindings, live?_of_mem_liveClasses hp hd, ClassDecl.checkSuper, hsuper,
          hget]
      refine hnone ⟨.undefinedClass s, d.line⟩ ?_ rfl
      exact List.mem_flatMap.2 ⟨d, mem_of_mem_firsts hd, by simp [htold]⟩
  · intro hknown x hx
    obtain ⟨d, hd, hx⟩ := List.mem_flatMap.1 hx
    unfold ClassDecl.superFindings at hx
    cases hlive : d.live? p.hierarchy with
    | none => simp [hlive] at hx
    | some owner =>
      obtain ⟨hmem, rfl⟩ := (live?_eq_some_iff hp hd owner).1 hlive
      rw [hlive] at hx
      have hbound : p.hierarchy.Bound d.info.1 := get?_hierarchy_live hmem
      cases hs : d.superName with
      | none => simp [ClassDecl.checkSuper, hs] at hx
      | some s =>
        obtain ⟨e, he⟩ := Option.isSome_iff_exists.1 (hknown _ hbound s hs)
        cases hcircle : p.hierarchy.onCycle d.info.1 with
        | false => simp [ClassDecl.checkSuper, hs, he, hcircle] at hx
        | true =>
          obtain rfl : x = ⟨.cyclicInheritance d.name, d.line⟩ := by
            simpa [ClassDecl.checkSuper, hs, he, hcircle] using hx
          simp [Issue.kind]

/-- The classes that are told to be in a circle are those that are known by their names and from
which the chain of superclasses comes back to them, each once, in order and at its line; of a class
that leads into a circle nothing is told. No circle and no unknown superclass is told exactly if
from every known class the chain ends at one without a superclass. -/
theorem circles_told_exactly {p : Program} (hp : p.IdentifiedByNumber) :
    ∃ ds, p.Reports ds ∧
      ds.filter (·.issue.kind = .cyclicInheritance) =
        (p.classes.filter (·.OnCircle p.hierarchy)).map (fun d =>
          ⟨.cyclicInheritance d.name, d.line⟩) ∧
      (∀ name c, p.hierarchy.get? name = some c →
        ((∃ line, ⟨.cyclicInheritance name, line⟩ ∈ ds) ↔ TransGen p.hierarchy.Extends c c)) ∧
      p.superFindings.Sublist ds ∧
      ((∀ x ∈ ds, x.issue.kind ≠ .cyclicInheritance) ∧
          (∀ x ∈ p.superFindings, x.issue.kind ≠ .undefinedClass) ↔
        ∀ name c, p.hierarchy.get? name = some c →
          ∃ root, ReflTransGen p.hierarchy.Extends c root ∧ root.superName = none) := by
  have hk := p.hierarchy_keyed
  have hcircles := circles_findings_eq hp
  have htold : ∀ x, x ∈ p.findings ∧ x.issue.kind = .cyclicInheritance ↔
      ∃ d ∈ p.classes, d.OnCircle p.hierarchy ∧ ⟨.cyclicInheritance d.name, d.line⟩ = x := by
    intro x
    have hmem := congrArg (x ∈ ·) hcircles
    simpa [and_assoc] using hmem
  refine ⟨p.findings, check_eq_findings p, hcircles, ?_, ?_, ?_⟩
  · intro name c hc
    have hname := hk name c hc
    subst hname
    rw [← exists_onCircle_iff hp hc]
    constructor
    · rintro ⟨line, hline⟩
      obtain ⟨d, hd, hon, heq⟩ := (htold _).1 ⟨hline, rfl⟩
      simp only [Diagnostic.mk.injEq, Issue.cyclicInheritance.injEq] at heq
      exact ⟨d, hd, hon, heq.1⟩
    · rintro ⟨d, hd, hon, hname⟩
      exact ⟨d.line, ((htold _).2 ⟨d, hd, hon, by rw [hname]⟩).1⟩
  · have hclasses : p.superFindings.Sublist (p.classes.flatMap (·.freshFindings p.hierarchy)) :=
      List.Sublist.flatMap_right _ fun d _ => d.superFindings_sublist p.hierarchy
    exact (hclasses.trans (List.sublist_append_right _ _)).trans (List.sublist_append_right _ _)
  · have hnone : (∀ x ∈ p.findings, x.issue.kind ≠ .cyclicInheritance) ↔ p.hierarchy.Acyclic := by
      rw [acyclic_iff hp]
      constructor
      · intro hnone d hd hon
        obtain ⟨hmem, hkind⟩ := (htold _).2 ⟨d, hd, hon, rfl⟩
        exact hnone _ hmem hkind
      · intro hnone x hx hkind
        obtain ⟨d, hd, hon, _⟩ := (htold x).1 ⟨hx, hkind⟩
        exact hnone d hd hon
    rw [hnone, supers_known_iff hp, ← Hierarchy.chains_end_iff hk]
    constructor
    · intro hends name c hc
      exact hends c (hk.bound hc)
    · intro hends c hc
      exact hends c.name c hc

/-- Classes `B` and `C` extend each other, `E` extends itself, and `A` leads into the first circle.
A second class `B` is not known by its name. -/
def entangled : Program where
  main := ⟨"Main", "args", .block [] none, none⟩
  classes :=
    [⟨1, "A", some "B", [], [], some 1⟩, ⟨2, "B", some "C", [], [], some 2⟩,
      ⟨3, "C", some "B", [], [], some 3⟩, ⟨4, "B", some "B", [], [], some 4⟩,
      ⟨5, "E", some "E", [], [], some 5⟩]
  line := none

/-- Of `A` and of the second `B` no circle is told, and the chain from `A` does not end. -/
theorem circles_told_exactly_entangled :
    entangled.IdentifiedByNumber ∧ ∃ ds, entangled.Reports ds ∧
      ds.filter (·.issue.kind = .cyclicInheritance) =
        [⟨.cyclicInheritance "B", some 2⟩, ⟨.cyclicInheritance "C", some 3⟩,
          ⟨.cyclicInheritance "E", some 5⟩] ∧
      ¬ ∀ name c, entangled.hierarchy.get? name = some c →
        ∃ root, ReflTransGen entangled.hierarchy.Extends c root ∧ root.superName = none := by
  have hids : entangled.IdentifiedByNumber :=
    DistinctNumbers.identified ⟨by decide, by decide⟩
  obtain ⟨ds, hds, hcircles, _, _, hends⟩ := circles_told_exactly hids
  have hthree : ds.filter (·.issue.kind = .cyclicInheritance) =
      [⟨.cyclicInheritance "B", some 2⟩, ⟨.cyclicInheritance "C", some 3⟩,
        ⟨.cyclicInheritance "E", some 5⟩] := by
    rw [hcircles]
    decide
  refine ⟨hids, ds, hds, hthree, fun hall => ?_⟩
  have hmem : (⟨.cyclicInheritance "B", some 2⟩ : Diagnostic) ∈
      ds.filter (·.issue.kind = .cyclicInheritance) := by simp [hthree]
  exact (hends.2 hall).1 _ (List.mem_filter.1 hmem).1 rfl

end Program

end MiniJava
