import MiniJava.Proofs.FirstWins
import MiniJava.Proofs.Live

/-!
# Repeated declarations left out

A class that is called like the main class or an earlier class, and a method that is called like an
earlier one of its class, may as well not be there. Without them the collection comes to the same
hierarchy, and the same is found in the code; all that is no longer told is what was told of them
and of what they declare.
-/

namespace MiniJava

namespace ClassDecl

/-- The class without the methods that repeat an earlier one. -/
def pruned (c : ClassDecl) : ClassDecl := { c with methods := c.liveMethods }

lemma liveMethods_pruned (c : ClassDecl) : c.pruned.liveMethods = c.liveMethods :=
  firsts_firsts List.nodup_nil c.methods

lemma info_pruned (c : ClassDecl) : c.pruned.info.1 = c.info.1 := by
  have hmethods : c.pruned.info.1.methods = c.info.1.methods := by
    apply Bindings.ext
    rw [entries_methods_firsts, entries_methods_firsts]
    exact congrArg (List.map _) c.liveMethods_pruned
  calc c.pruned.info.1
      = { c.info.1 with methods := c.pruned.info.1.methods } := rfl
    _ = c.info.1 := by rw [hmethods]

lemma nodup_ids_pruned {c : ClassDecl} (hc : (c.methods.map MethodDecl.id).Nodup) :
    (c.pruned.methods.map MethodDecl.id).Nodup :=
  hc.sublist ((firsts_sublist [] c.methods).map MethodDecl.id)

lemma told_pruned (c : ClassDecl) :
    c.pruned.info.2 = VarDecl.repeats [] c.fields ++ c.liveMethods.flatMap MethodDecl.repeats := by
  have hnodup : ([] ++ c.liveMethods.map MethodDecl.name).Nodup :=
    nodup_append_firsts List.nodup_nil c.methods
  have hmethods := declaring_declareMethod.told_gather_of_nodup c.liveMethods (s := .empty) hnodup
  simp only [MethodDecl.info_told] at hmethods
  calc c.pruned.info.2
      = (gather Bindings.declareVar .empty c.fields).2 ++
          (gather Bindings.declareMethod .empty c.liveMethods).2 := rfl
    _ = _ := by rw [VarDecl.told_declareVar, hmethods]

/-- In the code of a class nothing is found through its repeated methods. -/
lemma findings_pruned {c : ClassDecl} (hc : (c.methods.map MethodDecl.id).Nodup) (h : Hierarchy)
    {ctx : Context} (hctx : ctx.owner = c.info.1) :
    c.pruned.findings h ctx = c.findings h ctx := by
  have howner : (ctx.inClass h).owner = c.info.1 := hctx
  -- either way only the first methods of their names are checked
  have hmethods : c.pruned.methods.flatMap (·.findings h (ctx.inClass h)) =
      c.methods.flatMap (·.findings h (ctx.inClass h)) := by
    rw [flatMap_findings (nodup_ids_pruned hc) h (howner.trans c.info_pruned.symm),
      flatMap_findings hc h howner, liveMethods_pruned]
  rw [findings, findings, hmethods]
  rfl

end ClassDecl

/-! ### What is told of each declaration -/

/-- What the collection tells of one class or method and of the variables that it declares. -/
structure Part where
  kept : Bool
  told : List Diagnostic

lemma Part.flatMap_filter_kept (parts : List Part) : (parts.filter Part.kept).flatMap Part.told =
    parts.flatMap fun x => if x.kept then x.told else [] := by
  induction parts with
  | nil => rfl
  | cons x parts ih => cases hx : x.kept <;> simp [hx, ih]

namespace ClassDecl

/-- The class and its methods one by one. Where the class is left out, so are they all. -/
def parts (taken : List String) (c : ClassDecl) : List Part :=
  ⟨c.name ∉ taken, duplicate taken c.name c.line ++ VarDecl.repeats [] c.fields⟩ ::
    (withEarlier MethodDecl.name c.methods).map fun x =>
      ⟨c.name ∉ taken ∧ x.2.name ∉ x.1, duplicate x.1 x.2.name x.2.line ++ x.2.repeats⟩

lemma told_parts (taken : List String) (c : ClassDecl) :
    (c.parts taken).flatMap Part.told = duplicate taken c.name c.line ++ c.repeats := by
  simp [parts, repeats, List.flatMap_map]

lemma told_kept_parts (taken : List String) (c : ClassDecl) :
    ((c.parts taken).filter Part.kept).flatMap Part.told =
      if c.name ∈ taken then [] else c.pruned.info.2 := by
  rw [Part.flatMap_filter_kept, parts, List.flatMap_cons, List.flatMap_map]
  by_cases htaken : c.name ∈ taken
  · simp [htaken]
  · have hmethods : (withEarlier MethodDecl.name c.methods).flatMap (fun x =>
          if decide (c.name ∉ taken ∧ x.2.name ∉ x.1) then
            duplicate x.1 x.2.name x.2.line ++ x.2.repeats else []) =
        c.liveMethods.flatMap MethodDecl.repeats := by
      apply flatMap_firsts
      intro x _
      by_cases hx : x.2.name ∈ x.1 <;> simp [htaken, hx, duplicate]
    rw [hmethods, if_neg htaken, told_pruned]
    simp [htaken, duplicate]

end ClassDecl

/-! ### Whole programs -/

namespace Program

/-- The program without the classes that are called like the main class or an earlier class, and
without the methods that are called like an earlier one of their class. -/
def pruned (p : Program) : Program := { p with classes := p.liveClasses.map ClassDecl.pruned }

/-- The declarations of a program in the order in which they are collected. -/
def parts (p : Program) : List Part :=
  (withEarlier ClassDecl.name p.classes).flatMap fun x => x.2.parts (p.main.name :: x.1)

variable {p : Program}

lemma nodup_classNames_pruned (p : Program) : p.pruned.classNames.Nodup := by
  have hlive : ([p.main.name] ++ p.liveClasses.map ClassDecl.name).Nodup :=
    nodup_append_firsts (List.nodup_singleton _) p.classes
  have hnames : p.pruned.classes.map ClassDecl.name = p.liveClasses.map ClassDecl.name := by
    rw [pruned, List.map_map]
    rfl
  rw [← hnames] at hlive
  exact hlive

lemma liveClasses_pruned (p : Program) :
    p.pruned.liveClasses = p.liveClasses.map ClassDecl.pruned :=
  liveClasses_of_nodup p.nodup_classNames_pruned

lemma hierarchy_pruned (p : Program) : p.pruned.hierarchy = p.hierarchy := by
  apply hierarchy_eq_of_entries _ p.outer_hierarchy
  have hlive := p.liveClasses_pruned
  rw [entries_hierarchy_firsts, entries_hierarchy_firsts, ← liveClasses, ← liveClasses, hlive,
    List.map_map]
  simp only [Function.comp_def, ClassDecl.info_pruned]
  rfl

lemma DistinctNumbers.pruned (hp : p.DistinctNumbers) : p.pruned.DistinctNumbers where
  classes := by
    have hlive : (p.liveClasses.map ClassDecl.id).Nodup :=
      hp.classes.sublist ((firsts_sublist _ _).map ClassDecl.id)
    rw [Program.pruned, List.map_map]
    exact hlive
  methods := by
    intro c hc
    obtain ⟨d, hd, rfl⟩ := List.mem_map.1 hc
    exact ClassDecl.nodup_ids_pruned (hp.methods d (mem_of_mem_firsts hd))

lemma flatMap_freshFindings_pruned (hp : p.DistinctNumbers) :
    p.pruned.classes.flatMap (·.freshFindings p.pruned.hierarchy) =
      p.classes.flatMap (·.freshFindings p.hierarchy) := by
  rw [flatMap_freshFindings hp.pruned, flatMap_freshFindings hp, liveClasses_pruned,
    List.flatMap_map]
  apply List.flatMap_congr
  intro c hc
  rw [liveFindings, liveFindings, hierarchy_pruned, ClassDecl.info_pruned]
  exact ClassDecl.findings_pruned (hp.methods c (mem_of_mem_firsts hc)) _ rfl

lemma told_collect_parts (p : Program) :
    (Hierarchy.collect .empty p).2 = p.parts.flatMap Part.told := by
  simp only [told_collect_classes, parts, List.flatMap_assoc, ClassDecl.told_parts,
    ClassDecl.info_told]

lemma told_collect_pruned (p : Program) :
    (Hierarchy.collect .empty p.pruned).2 = (p.parts.filter Part.kept).flatMap Part.told := by
  have hkept : (p.parts.filter Part.kept).flatMap Part.told =
      p.liveClasses.flatMap fun c => c.pruned.info.2 := by
    rw [parts, List.filter_flatMap, List.flatMap_assoc]
    apply flatMap_firsts
    intro x _
    exact ClassDecl.told_kept_parts _ _
  rw [told_collect_of_nodup p.nodup_classNames_pruned, hkept, pruned, List.flatMap_map]

/-- Leave out every repeated class and every repeated method. The hierarchy stays the same and so
does what is found in the code; the collection tells of each declaration that is left what it told
before, and nothing else. -/
theorem repeated_declarations_inert {p : Program} (hp : p.DistinctNumbers) :
    (Hierarchy.collect .empty p.pruned).1 = (Hierarchy.collect .empty p).1 ∧
    (∃ ds, (p.checkAgainst (Hierarchy.collect .empty p).1).Finds () ds ∧
      (p.pruned.checkAgainst (Hierarchy.collect .empty p.pruned).1).Finds () ds) ∧
    (Hierarchy.collect .empty p).2 = p.parts.flatMap Part.told ∧
    (Hierarchy.collect .empty p.pruned).2 = (p.parts.filter Part.kept).flatMap Part.told := by
  have hfull := checkAgainst_finds p.context?_mainClass
  have hpruned := checkAgainst_finds p.pruned.context?_mainClass
  rw [flatMap_freshFindings_pruned hp, hierarchy_pruned] at hpruned
  exact ⟨p.hierarchy_pruned, ⟨_, hfull, p.hierarchy_pruned.symm ▸ hpruned⟩, p.told_collect_parts,
    p.told_collect_pruned⟩

/-- Of five findings in the declarations one is left: the two fields `x` are in the class that is
known. -/
theorem repeated_declarations_inert_twins :
    twins.DistinctNumbers ∧
    (Hierarchy.collect .empty twins.pruned).1 = (Hierarchy.collect .empty twins).1 ∧
    (∃ ds, (twins.checkAgainst (Hierarchy.collect .empty twins).1).Finds () ds ∧
      (twins.pruned.checkAgainst (Hierarchy.collect .empty twins.pruned).1).Finds () ds) ∧
    (Hierarchy.collect .empty twins).2 =
      [⟨.duplicateDefinition "x", some 2⟩, ⟨.duplicateDefinition "m", some 4⟩,
        ⟨.duplicateDefinition "y", some 5⟩, ⟨.duplicateDefinition "A", some 7⟩,
        ⟨.duplicateDefinition "Main", some 9⟩] ∧
    (Hierarchy.collect .empty twins.pruned).2 = [⟨.duplicateDefinition "x", some 2⟩] := by
  obtain ⟨hhierarchy, hcode, htold, hleft⟩ := repeated_declarations_inert distinctNumbers_twins
  refine ⟨distinctNumbers_twins, hhierarchy, hcode, htold.trans ?_, hleft.trans ?_⟩
  · decide
  · decide

end Program

end MiniJava
