import MiniJava.Proofs.Live
import MiniJava.Proofs.Subsumption

/-!
# Bodies are checked one by one

The main statement and the code of a method may be exchanged for other code. Nothing but the
findings in that piece of code changes: the declarations are the same, and every other body is
checked against the same hierarchy and in the same context as before. Code that belongs to a
repeated declaration is not looked at.
-/

namespace MiniJava

/-- What a method does: its statements and the value that it returns. -/
structure Code where
  body : List Stmt
  result : Expr

def MethodDecl.code (m : MethodDecl) : Code := ⟨m.body, m.result⟩

def MethodDecl.withCode (m : MethodDecl) (code : Code) : MethodDecl :=
  { m with body := code.body, result := code.result }

/-- The program with another main statement. -/
def Program.withMainBody (p : Program) (s : Stmt) : Program :=
  { p with main := { p.main with body := s } }

/-- A method of a program, with what stands before and behind it. -/
structure MethodPlace (p : Program) where
  before : List ClassDecl
  owner : ClassDecl
  after : List ClassDecl
  classes_eq : p.classes = before ++ owner :: after
  earlier : List MethodDecl
  method : MethodDecl
  later : List MethodDecl
  methods_eq : owner.methods = earlier ++ method :: later

namespace MethodPlace

variable {p : Program} (place : MethodPlace p)

/-- The class with other code in the method. -/
def ownerWith (code : Code) : ClassDecl :=
  { place.owner with methods := place.earlier ++ place.method.withCode code :: place.later }

/-- The program with other code in the method, which stays the same declaration. -/
def withCode (code : Code) : Program :=
  { p with classes := place.before ++ place.ownerWith code :: place.after }

/-- The method repeats an earlier one of its class, or the class repeats the main class or an
earlier one. -/
def Repeated : Prop :=
  place.owner.name ∈ p.main.name :: place.before.map ClassDecl.name ∨
    place.method.name ∈ place.earlier.map MethodDecl.name

instance : Decidable place.Repeated :=
  inferInstanceAs (Decidable (_ ∨ _))

/-- What is found in the code, put in the place of the method. -/
def codeFindings (code : Code) : List Diagnostic :=
  if place.Repeated then []
  else (place.method.withCode code).checkBody p.hierarchy
    (p.methodContext place.owner place.method) place.method.info.1

lemma withCode_code : place.withCode place.method.code = p := by
  have hmethod : place.method.withCode place.method.code = place.method := rfl
  simp only [withCode, ownerWith, hmethod, ← place.methods_eq, ← place.classes_eq]

lemma head_ownerWith (code : Code) : (place.ownerWith code).head = place.owner.head := by
  simp only [ClassDecl.head, ownerWith, place.methods_eq, List.map_append, List.map_cons]
  rfl

lemma heads_withCode (code : Code) : (place.withCode code).heads = p.heads := by
  simp only [Program.heads, withCode, place.classes_eq, List.map_append, List.map_cons,
    place.head_ownerWith]

end MethodPlace

/-! ### One piece of a list that depends on its place -/

/-- The whole is the part with something ahead of it and behind it that is always the same. -/
def Within {α : Type} (part whole : α → List Diagnostic) : Prop :=
  ∃ ahead behind, ∀ x, whole x = ahead ++ part x ++ behind

namespace Within

variable {α : Type} {part whole : α → List Diagnostic}

lemma whole_eq (heq : ∀ x, whole x = part x) : Within part whole :=
  ⟨[], [], by simpa using heq⟩

lemma of_nil (hpart : ∀ x, part x = []) (same : List Diagnostic) (heq : ∀ x, whole x = same) :
    Within part whole :=
  ⟨same, [], by simpa [hpart] using heq⟩

lemma append (hw : Within part whole) (left right : List Diagnostic) :
    Within part fun x => left ++ (whole x ++ right) := by
  obtain ⟨ahead, behind, heq⟩ := hw
  exact ⟨left ++ ahead, behind ++ right, by simp [heq]⟩

lemma embed {whole' : α → List Diagnostic} (hw : Within part whole) (left right : List Diagnostic)
    (heq : ∀ x, whole' x = left ++ (whole x ++ right)) : Within part whole' := by
  obtain ⟨ahead, behind, hwhole⟩ := hw.append left right
  exact ⟨ahead, behind, fun x => (heq x).trans (hwhole x)⟩

end Within

/-! ### The code in its place -/

namespace MethodPlace

variable {p : Program} (place : MethodPlace p)

/-- The methods of the class are checked in this context. -/
def classContext : Context := Context.inClass p.hierarchy ⟨place.owner.info.1, .empty⟩

lemma within_method (hp : p.DistinctNumbers)
    (howner : place.owner.name ∉ p.main.name :: place.before.map ClassDecl.name) :
    Within place.codeFindings fun code =>
      (place.method.withCode code).findings p.hierarchy place.classContext := by
  have hnumbers : (place.owner.methods.map MethodDecl.id).Nodup :=
    hp.methods _ (by simp [place.classes_eq])
  have hown := MethodDecl.live?_info hnumbers place.methods_eq
  have hlive : ∀ code, (place.method.withCode code).live? place.classContext.owner =
      place.method.live? place.owner.info.1 := fun code => rfl
  by_cases hmethod : place.method.name ∈ place.earlier.map MethodDecl.name
  · refine .of_nil (fun code => if_pos (.inr hmethod)) [] fun code => ?_
    rw [MethodDecl.findings, hlive, hown, if_pos hmethod]
  · have hrepeated : ¬ place.Repeated := fun hor => hor.elim howner hmethod
    have hbody : Within place.codeFindings fun code => (place.method.withCode code).checkBody
        p.hierarchy (p.methodContext place.owner place.method) place.method.info.1 :=
      .whole_eq fun code => (if_neg hrepeated).symm
    convert hbody.append (place.method.checkTypes p.hierarchy place.method.info.1) [] using 2
    rw [MethodDecl.findings, hlive, hown, if_neg hmethod, List.append_nil]
    rfl

lemma within_class (hp : p.DistinctNumbers) :
    Within place.codeFindings fun code => (place.ownerWith code).freshFindings p.hierarchy := by
  have hown := Program.live?_hierarchy hp place.classes_eq
  have hlive : ∀ code, (place.ownerWith code).live? p.hierarchy =
      place.owner.live? p.hierarchy := fun code => rfl
  by_cases howner : place.owner.name ∈ p.main.name :: place.before.map ClassDecl.name
  · refine .of_nil (fun code => if_pos (.inl howner)) [] fun code => ?_
    rw [ClassDecl.freshFindings, hlive, hown, if_pos howner]
  · let methodFindings := MethodDecl.findings p.hierarchy place.classContext
    have hmethods := (place.within_method hp howner).append
      (place.earlier.flatMap methodFindings) (place.later.flatMap methodFindings)
    convert hmethods.append
      (place.owner.checkSuper p.hierarchy place.owner.info.1 ++
        place.owner.fields.flatMap (·.undeclared p.hierarchy))
      (place.owner.overrideMismatches place.owner.info.1
        (p.hierarchy.ancestors place.owner.info.1)) using 2
    rw [ClassDecl.freshFindings, hlive, hown, if_neg howner]
    simp only [ClassDecl.findings, ownerWith, List.flatMap_append, List.flatMap_cons,
      List.append_assoc]
    rfl

end MethodPlace

namespace Program

variable {p q : Program}

lemma reports_findings (p : Program) : p.Reports p.findings := check_eq_findings p

/-- New code is checked against the old hierarchy and in the old contexts. -/
lemma findings_of_heads_eq (hq : q.heads = p.heads) :
    q.findings = (Hierarchy.collect .empty p).2 ++
      (q.main.body.check p.hierarchy p.mainContext ++
        q.classes.flatMap (·.freshFindings p.hierarchy)) := by
  have hcontext : q.mainContext = p.mainContext := by
    have hname : q.main.name = p.main.name := congrArg (·.main.name) hq
    have harg : q.main.arg = p.main.arg := congrArg (·.main.arg) hq
    simp only [mainContext, MainClass.info, hname, harg]
  rw [findings, collect_of_heads_eq hq, hierarchy_of_heads_eq hq, hcontext]

lemma within_mainBody (p : Program) :
    Within (fun s => s.check p.hierarchy p.mainContext) fun s => (p.withMainBody s).findings := by
  have hheads : ∀ s, (p.withMainBody s).heads = p.heads := fun s => rfl
  convert (Within.whole_eq fun s => rfl).append (Hierarchy.collect .empty p).2
    (p.classes.flatMap (·.freshFindings p.hierarchy)) using 2 with s
  rw [findings_of_heads_eq (hheads s)]
  rfl

lemma within_program (hp : p.DistinctNumbers) (place : MethodPlace p) :
    Within place.codeFindings fun code => (place.withCode code).findings := by
  let classFindings := ClassDecl.freshFindings p.hierarchy
  convert (place.within_class hp).append
    ((Hierarchy.collect .empty p).2 ++ p.main.body.check p.hierarchy p.mainContext ++
      place.before.flatMap classFindings) (place.after.flatMap classFindings) using 2 with code
  rw [findings_of_heads_eq (place.heads_withCode code)]
  simp only [MethodPlace.withCode, List.flatMap_append, List.flatMap_cons, List.append_assoc]
  rfl

/-- Put any code in the place of the main statement or of the code of one method. The collection
comes to the same hierarchy and tells the same. What is found altogether is what is found in that
code, in its own context, between findings that are always the same; in a repeated method or class
nothing is found. -/
theorem bodies_checked_modularly {p : Program} (hp : p.DistinctNumbers) :
    (∃ ahead behind, ∀ s : Stmt,
      Hierarchy.collect .empty (p.withMainBody s) = Hierarchy.collect .empty p ∧
        (p.withMainBody s).Reports (ahead ++ s.check p.hierarchy p.mainContext ++ behind)) ∧
    ∀ place : MethodPlace p, ∃ ahead behind,
      p.Reports (ahead ++ place.codeFindings place.method.code ++ behind) ∧
      ∀ code : Code,
        Hierarchy.collect .empty (place.withCode code) = Hierarchy.collect .empty p ∧
          (place.withCode code).Reports (ahead ++ place.codeFindings code ++ behind) := by
  constructor
  · obtain ⟨ahead, behind, hfound⟩ := p.within_mainBody
    refine ⟨ahead, behind, fun s => ⟨collect_of_heads_eq rfl .empty, ?_⟩⟩
    rw [← hfound]
    exact reports_findings _
  · intro place
    obtain ⟨ahead, behind, hfound⟩ := within_program hp place
    have hreports : ∀ code, (place.withCode code).Reports
        (ahead ++ place.codeFindings code ++ behind) := by
      intro code
      rw [← hfound]
      exact reports_findings _
    have hown := hreports place.method.code
    rw [place.withCode_code] at hown
    exact ⟨ahead, behind, hown, fun code =>
      ⟨collect_of_heads_eq (place.heads_withCode code) .empty, hreports code⟩⟩

/-- The first method `m` of the first class `A`, which is known by its name. -/
def twinsFirst : MethodPlace twins where
  before := []
  owner := ⟨1, "A", none, [⟨⟨.int, none⟩, "x", none⟩, ⟨⟨.int, none⟩, "x", some 2⟩],
    [⟨2, ⟨.int, none⟩, "m", [], [], [], .boolLiteral true (some 3), none⟩,
      ⟨3, ⟨.int, none⟩, "m", [⟨⟨.int, none⟩, "y", none⟩, ⟨⟨.int, none⟩, "y", some 5⟩], [],
      [],
        .identifier "z" (some 6), some 4⟩], none⟩
  after := twins.classes.tail
  classes_eq := rfl
  earlier := []
  method := ⟨2, ⟨.int, none⟩, "m", [], [], [], .boolLiteral true (some 3), none⟩
  later := [⟨3, ⟨.int, none⟩, "m", [⟨⟨.int, none⟩, "y", none⟩, ⟨⟨.int, none⟩, "y", some 5⟩], [],
      [],
    .identifier "z" (some 6), some 4⟩]
  methods_eq := rfl

/-- The second method `m` of the class. -/
def twinsSecond : MethodPlace twins :=
  { twinsFirst with
    earlier := [twinsFirst.method]
    method := ⟨3, ⟨.int, none⟩, "m", [⟨⟨.int, none⟩, "y", none⟩, ⟨⟨.int, none⟩, "y", some 5⟩], [],
      [],
      .identifier "z" (some 6), some 4⟩
    later := []
    methods_eq := rfl }

/-- The wrong result of the first `m` is found in its place and is gone with better code; whatever
the second `m` returns, nothing is found. -/
theorem bodies_checked_modularly_twins :
    twins.DistinctNumbers ∧
      (∃ ahead behind, twins.Reports (ahead ++ [⟨.typeMismatch .int .boolean, some 3⟩] ++ behind) ∧
        (twinsFirst.withCode ⟨[], .intLiteral 1 none⟩).Reports (ahead ++ [] ++ behind)) ∧
      ∃ ahead behind, twins.Reports (ahead ++ [] ++ behind) ∧
        (twinsSecond.withCode ⟨[], .boolLiteral true none⟩).Reports (ahead ++ [] ++ behind) := by
  have hwrong : twinsFirst.codeFindings twinsFirst.method.code =
      [⟨.typeMismatch .int .boolean, some 3⟩] := by decide
  have hright : twinsFirst.codeFindings ⟨[], .intLiteral 1 none⟩ = [] := by decide
  have hsecond : ∀ code, twinsSecond.codeFindings code = [] :=
    fun code => if_pos (.inr (by decide))
  obtain ⟨_, hplaces⟩ := bodies_checked_modularly distinctNumbers_twins
  refine ⟨distinctNumbers_twins, ?_, ?_⟩
  · obtain ⟨ahead, behind, hown, hall⟩ := hplaces twinsFirst
    exact ⟨ahead, behind, hwrong ▸ hown, hright ▸ (hall _).2⟩
  · obtain ⟨ahead, behind, hown, hall⟩ := hplaces twinsSecond
    exact ⟨ahead, behind, hsecond _ ▸ hown, hsecond _ ▸ (hall _).2⟩

end Program

end MiniJava
