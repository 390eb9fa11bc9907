import Mathlib.Data.List.Perm.Basic
import MiniJava.Proofs.Acceptance
import MiniJava.Proofs.Answers

/-!
# The order of declarations

A program may list its classes, and a class its fields and its methods, in any order. As long as
each of them has a name of its own, the hierarchy shows the same faces and so every declaration gets
the same diagnostics: only the order in which they are reported follows the text.
-/

namespace MiniJava

namespace Bindings

variable {α β : Type}

lemma get?_eq_of_perm {b c : Bindings α} (hbc : b.entries.Perm c.entries) : b.get? = c.get? := by
  funext name
  apply Option.ext
  intro value
  rw [get?_eq_some_iff, get?_eq_some_iff, hbc.mem_iff]

lemma get?_mapValues (f : α → β) (b : Bindings α) (name : String) :
    (b.mapValues f).get? name = (b.get? name).map f := by
  apply Option.ext
  intro value
  simp [get?_eq_some_iff, mapValues]

end Bindings

lemma Context.alike_inClass {h k : Hierarchy} (hhk : h.face? = k.face?) {c d : ClassInfo}
    (hcd : c.face = d.face) :
    (Context.inClass h ⟨c, .empty⟩).Alike (Context.inClass k ⟨d, .empty⟩) where
  owner := ClassInfo.name_eq_of_face hcd
  resolve x := by
    rw [Program.resolve_inClass, Program.resolve_inClass]
    exact ClassInfo.findSome?_eq_of_face (Hierarchy.face_cons_ancestors hhk hcd) (·.field? x)

lemma MethodDecl.findings_eq {h k : Hierarchy} (hhk : h.Alike k) {ctx dtx : Context}
    (hctx : ctx.Alike dtx) (howner : ctx.owner.face = dtx.owner.face) (m : MethodDecl) :
    m.findings h ctx = m.findings k dtx := by
  have hlive : m.live? ctx.owner = m.live? dtx.owner := by
    have hmethods : ctx.owner.methods.get? = dtx.owner.methods.get? :=
      congrArg ClassFace.method? howner
    rw [live?, live?, hmethods]
  unfold findings
  rw [hlive]
  cases m.live? dtx.owner with
  | none => rfl
  | some i =>
    obtain ⟨htypes, hbody⟩ := hhk.checkMethod (hctx.enter i.scope) m i
    simp only [htypes, hbody]

namespace ClassDecl

/-- No field and no method is declared twice. -/
structure DistinctMembers (c : ClassDecl) : Prop where
  fields : (c.fields.map VarDecl.name).Nodup
  methods : (c.methods.map MethodDecl.name).Nodup

/-- The class with its fields and its methods in another order. -/
structure Reordered (c d : ClassDecl) : Prop where
  id : c.id = d.id
  name : c.name = d.name
  superName : c.superName = d.superName
  line : c.line = d.line
  fields : c.fields.Perm d.fields
  methods : c.methods.Perm d.methods

variable {c d : ClassDecl}

lemma DistinctMembers.reordered (hc : c.DistinctMembers) (hcd : c.Reordered d) :
    d.DistinctMembers where
  fields := (hcd.fields.map _).nodup_iff.1 hc.fields
  methods := (hcd.methods.map _).nodup_iff.1 hc.methods

lemma DistinctMembers.info_told (hc : c.DistinctMembers) :
    c.info.2 = c.methods.flatMap fun m => m.info.2 := by
  have hfields := declaring_declareVar.told_gather_of_nodup c.fields (s := .empty) hc.fields
  have hmethods := declaring_declareMethod.told_gather_of_nodup c.methods (s := .empty) hc.methods
  have hboth : c.info.2 = (gather Bindings.declareVar .empty c.fields).2 ++
      (gather Bindings.declareMethod .empty c.methods).2 := rfl
  rw [hboth, hfields, hmethods]
  simp

namespace Reordered

lemma methods_entries (hcd : c.Reordered d) (hc : c.DistinctMembers) :
    c.info.1.methods.entries.Perm d.info.1.methods.entries := by
  rw [entries_methods hc.methods, entries_methods (hc.reordered hcd).methods]
  exact hcd.methods.map _

lemma face (hcd : c.Reordered d) (hc : c.DistinctMembers) : c.info.1.face = d.info.1.face := by
  have hname : c.info.1.name = d.info.1.name := hcd.name
  have hsuper : c.info.1.superName = d.info.1.superName := hcd.superName
  have hfields : c.info.1.fields.get? = d.info.1.fields.get? := by
    apply Bindings.get?_eq_of_perm
    rw [entries_fields hc.fields, entries_fields (hc.reordered hcd).fields]
    exact hcd.fields.map _
  have hmethods := Bindings.get?_eq_of_perm (hcd.methods_entries hc)
  rw [ClassInfo.face, ClassInfo.face, hname, hsuper, hfields, hmethods]

lemma info_told (hcd : c.Reordered d) (hc : c.DistinctMembers) : c.info.2.Perm d.info.2 := by
  rw [hc.info_told, (hc.reordered hcd).info_told]
  exact hcd.methods.flatMap_right _

variable {h k : Hierarchy}

lemma checkSuper_eq (hcd : c.Reordered d) (hc : c.DistinctMembers) (hhk : h.face? = k.face?) :
    c.checkSuper h c.info.1 = d.checkSuper k d.info.1 := by
  have hknown := (Hierarchy.alike_of_face hhk).known
  have hcycle := Hierarchy.onCycle_eq_of_face hhk (hcd.face hc)
  unfold checkSuper
  rw [hcd.superName, hcd.name, hcd.line, hcycle]
  cases d.superName with
  | none => rfl
  | some s => simp only [← Option.not_isSome, hknown]

lemma overrideMismatches_perm (hcd : c.Reordered d) (hc : c.DistinctMembers)
    (hhk : h.face? = k.face?) :
    (c.overrideMismatches c.info.1 (h.ancestors c.info.1)).Perm
      (d.overrideMismatches d.info.1 (k.ancestors d.info.1)) := by
  have habove : ∀ m, (h.ancestors c.info.1).findSome? (·.methods.get? m) =
      (k.ancestors d.info.1).findSome? (·.methods.get? m) := fun m =>
    ClassInfo.findSome?_eq_of_face (Hierarchy.face_ancestors hhk (hcd.face hc)) (·.method? m)
  unfold overrideMismatches
  simp only [habove, hcd.name, hcd.line]
  exact (hcd.methods_entries hc).flatMap_right _

/-- In hierarchies with the same faces the same is found in the class, each part in its order. -/
theorem findings_perm (hcd : c.Reordered d) (hc : c.DistinctMembers) (hhk : h.face? = k.face?) :
    (c.findings h ⟨c.info.1, .empty⟩).Perm (d.findings k ⟨d.info.1, .empty⟩) := by
  have halike := Hierarchy.alike_of_face hhk
  have hface := hcd.face hc
  have hfields : VarDecl.undeclared h = VarDecl.undeclared k := by
    funext v
    simp only [VarDecl.undeclared, halike.undeclared]
  have hmethods : MethodDecl.findings h (Context.inClass h ⟨c.info.1, .empty⟩) =
      MethodDecl.findings k (Context.inClass k ⟨d.info.1, .empty⟩) := by
    funext m
    exact m.findings_eq halike (Context.alike_inClass hhk hface) hface
  unfold ClassDecl.findings
  rw [hcd.checkSuper_eq hc hhk, hfields, hmethods]
  exact (((List.Perm.refl _).append (hcd.fields.flatMap_right _)).append
    (hcd.methods.flatMap_right _)).append (hcd.overrideMismatches_perm hc hhk)

end Reordered

end ClassDecl

namespace Program

/-- No class, and inside a class no field and no method, is declared twice. The variables of a
method may be. -/
structure DistinctMembers (p : Program) : Prop where
  classes : p.classNames.Nodup
  members : ∀ c ∈ p.classes, c.DistinctMembers

/-- The program with its classes in another order, and inside each of them the members. -/
structure Reordered (p q : Program) : Prop where
  main : p.main = q.main
  line : p.line = q.line
  classes : ∃ cs, List.Forall₂ ClassDecl.Reordered p.classes cs ∧ cs.Perm q.classes

variable {p q : Program}

namespace Reordered

lemma flatMap_perm {β : Type} (hpq : p.Reordered q) (hp : p.DistinctMembers)
    {f g : ClassDecl → List β}
    (hfg : ∀ c d, c.DistinctMembers → c.Reordered d → (f c).Perm (g d)) :
    (p.classes.flatMap f).Perm (q.classes.flatMap g) := by
  obtain ⟨cs, hcs, hperm⟩ := hpq.classes
  have hboth := (List.forall₂_and_left _ _).2 ⟨hp.members, hcs⟩
  have hlists : List.Forall₂ List.Perm (p.classes.map f) (cs.map g) := by
    rw [List.forall₂_map_left_iff, List.forall₂_map_right_iff]
    exact hboth.imp fun c d hcd => hfg c d hcd.1 hcd.2
  exact (List.Perm.flatten_congr hlists).trans (hperm.flatMap_right g)

lemma map_perm {β : Type} (hpq : p.Reordered q) (hp : p.DistinctMembers) {f : ClassDecl → β}
    (hf : ∀ c d, c.DistinctMembers → c.Reordered d → f c = f d) :
    (p.classes.map f).Perm (q.classes.map f) := by
  rw [List.map_eq_flatMap, List.map_eq_flatMap]
  apply hpq.flatMap_perm hp
  intro c d hc hcd
  rw [hf c d hc hcd]

lemma classNames_nodup (hpq : p.Reordered q) (hp : p.DistinctMembers) : q.classNames.Nodup := by
  have hnames := hpq.map_perm hp fun c d _ hcd => hcd.name
  have hall : p.classNames.Perm q.classNames := by
    rw [classNames, classNames, hpq.main]
    exact hnames.cons _
  exact hall.nodup_iff.1 hp.classes

theorem face?_hierarchy (hpq : p.Reordered q) (hp : p.DistinctMembers) :
    p.hierarchy.face? = q.hierarchy.face? := by
  have hown : ∀ p : Program,
      p.hierarchy.face? = (p.hierarchy.own.mapValues ClassInfo.face).get? := by
    intro p
    funext name
    rw [Hierarchy.face?, get?_hierarchy, Bindings.get?_mapValues]
  have hclasses := hpq.map_perm hp (f := fun c => (c.name, c.info.1.face)) fun c d hc hcd => by
    rw [hcd.name, hcd.face hc]
  -- the classes entered may differ in the order of their members, so only their faces are permuted
  rw [hown p, hown q]
  apply Bindings.get?_eq_of_perm
  simp only [Bindings.mapValues, entries_hierarchy hp.classes,
    entries_hierarchy (hpq.classNames_nodup hp), List.map_cons, List.map_map, hpq.main]
  exact hclasses.cons _

end Reordered

lemma freshFindings_of_nodup (hp : p.classNames.Nodup) :
    p.classes.flatMap (·.freshFindings p.hierarchy) =
      p.classes.flatMap fun c => c.findings p.hierarchy ⟨c.info.1, .empty⟩ := by
  apply List.flatMap_congr
  intro c hc
  rw [ClassDecl.freshFindings, live?_class hp hc]

theorem Reordered.findings_perm (hpq : p.Reordered q) (hp : p.DistinctMembers) :
    p.findings.Perm q.findings := by
  have hface := hpq.face?_hierarchy hp
  have hq := hpq.classNames_nodup hp
  have hmain : p.main.body.check p.hierarchy p.mainContext =
      q.main.body.check q.hierarchy q.mainContext := by
    have hctx : p.mainContext = q.mainContext := by simp only [mainContext, hpq.main]
    rw [hctx, hpq.main]
    exact (Hierarchy.alike_of_face hface).check (.refl _) _
  have htold := hpq.flatMap_perm hp fun c d hc hcd => hcd.info_told hc
  have hclasses := hpq.flatMap_perm hp fun c d hc hcd => hcd.findings_perm hc hface
  rw [findings, findings, told_collect_of_nodup hp.classes, told_collect_of_nodup hq,
    freshFindings_of_nodup hp.classes, freshFindings_of_nodup hq, hmain]
  exact htold.append (hclasses.append_left _)

/-- The order of declarations does not matter: a reordered program is accepted too, or it is refused
too and with the same diagnostics up to their order. -/
theorem declaration_order_irrelevant {p q : Program} (hp : p.DistinctMembers)
    (hpq : p.Reordered q) :
    (∃ c d, p.check = .ok c ∧ q.check = .ok d) ∨
      ∃ ds es, p.check = .error (.findings ds) ∧ q.check = .error (.findings es) ∧
        es.Perm ds := by
  have hperm := hpq.findings_perm hp
  rw [check_eq_findings, check_eq_findings]
  by_cases hnone : p.findings = []
  · have hnone' : q.findings = [] := by
      rw [hnone] at hperm
      exact hperm.symm.eq_nil
    exact .inl ⟨⟨p, p.hierarchy⟩, ⟨q, q.hierarchy⟩, by simp [hnone], by simp [hnone']⟩
  · have hsome : q.findings ≠ [] := by
      intro hq
      rw [hq] at hperm
      exact hnone hperm.eq_nil
    exact .inr ⟨p.findings, q.findings, by simp [hnone], by simp [hsome], hperm.symm⟩

/-- Two classes, each the superclass of the other, that disagree on `m`; the first has a field of an
unknown class, and its `n` does not return what it should. -/
def circle : Program where
  main := ⟨"Main", "args", .print (.call (.newObject "A" none) "n" [] none) none, none⟩
  classes :=
    [⟨1, "A", some "B", [⟨⟨.int, none⟩, "x", some 3⟩, ⟨⟨.ofClass "C", none⟩, "y", some 4⟩],
        [⟨2, ⟨.int, none⟩, "m", [⟨⟨.int, none⟩, "x", none⟩, ⟨⟨.int, none⟩, "x", some 5⟩], [], [],
          .identifier "x" none, some 5⟩,
        ⟨3, ⟨.int, none⟩, "n", [], [], [], .boolLiteral true (some 6), some 6⟩], some 2⟩,
      ⟨4, "B", some "A", [], [⟨5, ⟨.int, none⟩, "m", [], [], [], .identifier "x" none, some 8⟩],
        some 7⟩]
  line := none

/-- The same with the classes, the fields and the methods turned round. -/
def circleTurned : Program :=
  { circle with classes := (circle.classes.map fun c =>
      { c with fields := c.fields.reverse, methods := c.methods.reverse }).reverse }

/-- The diagnostics of the two circles differ in their order only. -/
theorem declaration_order_irrelevant_circle :
    ∃ ds es, circle.check = .error (.findings ds) ∧ circleTurned.check = .error (.findings es) ∧
      ds.length = 7 ∧ es ≠ ds ∧ es.Perm ds := by
  have hp : circle.check = .error (.findings circle.findings) := by rfl
  have hlen : circle.findings.length = 7 := by decide
  have hdistinct : circle.DistinctMembers := by
    have hmembers : ∀ c ∈ circle.classes, (c.fields.map VarDecl.name).Nodup ∧
        (c.methods.map MethodDecl.name).Nodup := by decide
    exact ⟨by decide, fun c hc => ⟨(hmembers c hc).1, (hmembers c hc).2⟩⟩
  have hturned : circle.Reordered circleTurned := by
    refine ⟨rfl, rfl, _, ?_, (List.reverse_perm _).symm⟩
    rw [List.forall₂_map_right_iff, List.forall₂_same]
    intro c _
    exact ⟨rfl, rfl, rfl, rfl, (List.reverse_perm _).symm, (List.reverse_perm _).symm⟩
  have hdiffer : circleTurned.findings ≠ circle.findings := by decide
  have hq : circleTurned.check = .error (.findings circleTurned.findings) := by rfl
  rcases declaration_order_irrelevant hdistinct hturned with
    ⟨c, d, hc, _⟩ | ⟨ds, es, hds, hes, hperm⟩
  · rw [hp] at hc
    cases hc
  · rw [hp] at hds
    rw [hq] at hes
    cases hds
    cases hes
    exact ⟨_, _, hp, hq, hlen, hdiffer, hperm⟩

end Program

end MiniJava
