import MiniJava.Proofs.Retyping

/-!
# A declared type without a class

In an accepted program the type of one variable, or the return type of one method, is exchanged for
a class that nobody declares. That is told once, where the type is written, and nothing else is:
neither of the uses of the variable nor of the calls of the method.
-/

namespace MiniJava
open Relation

/-! ### Another type in a declaration -/

/-- A variable of a list, with what stands before and behind it. -/
structure VarPlace (vars : List VarDecl) where
  before : List VarDecl
  var : VarDecl
  after : List VarDecl
  vars_eq : vars = before ++ var :: after

/-- The list with another type for that variable. -/
def VarPlace.retype {vars : List VarDecl} (v : VarPlace vars) (t : TypeLiteral) : List VarDecl :=
  v.before ++ { v.var with type := t } :: v.after

/-- A type that is written in a program. -/
inductive TypePlace (p : Program)
  | field (c : ClassPlace p) (v : VarPlace c.owner.fields)
  | formal (m : MethodPlace p) (v : VarPlace m.method.formals)
  | localVar (m : MethodPlace p) (v : VarPlace m.method.locals)
  | result (m : MethodPlace p)

namespace TypePlace

variable {p : Program}

/-- The program with another type in that place. -/
def retype (t : TypeLiteral) : TypePlace p → Program
  | field c v => c.replace { c.owner with fields := v.retype t }
  | formal m v => m.replace { m.method with formals := v.retype t }
  | localVar m v => m.replace { m.method with locals := v.retype t }
  | result m => m.replace { m.method with returnType := t }

/-- The line on which the type of that place is told, if it is written on line `l`: a variable's
type is told on the line of the variable. -/
def toldLine (l : Line) : TypePlace p → Line
  | field _ v | formal _ v | localVar _ v => v.var.line
  | result _ => l

/-- The type is in no signature that another method has to agree with. -/
def Free : TypePlace p → Prop
  | field _ _ | localVar _ _ => True
  | formal m _ | result m => m.Sole

end TypePlace

/-! ### What is told of declared types -/

lemma VarPlace.retype_type {vars : List VarDecl} (v : VarPlace vars) :
    v.retype v.var.type = vars :=
  v.vars_eq.symm

lemma VarPlace.within_retype {vars : List VarDecl} (v : VarPlace vars) (h : Hierarchy) :
    Within (fun t => h.undeclared t.ty v.var.line)
      fun t => (v.retype t).flatMap (·.undeclared h) := by
  refine ⟨v.before.flatMap (·.undeclared h), v.after.flatMap (·.undeclared h), fun t => ?_⟩
  simp only [VarPlace.retype, List.flatMap_append, List.flatMap_cons, List.append_assoc]
  rfl

lemma ClassPlace.within_replace {p : Program} (place : ClassPlace p) (h : Hierarchy) {α : Type}
    {part : α → List Diagnostic} {c : α → ClassDecl}
    (hc : Within part fun x => (c x).undeclaredTypes h) :
    Within part fun x => (place.replace (c x)).undeclaredTypes h := by
  apply hc.embed (place.before.flatMap (·.undeclaredTypes h))
    (place.after.flatMap (·.undeclaredTypes h))
  intro x
  simp only [Program.undeclaredTypes, ClassPlace.replace, List.flatMap_append, List.flatMap_cons]

lemma MethodPlace.within_replace {p : Program} (place : MethodPlace p) (h : Hierarchy) {α : Type}
    {part : α → List Diagnostic} {m : α → MethodDecl}
    (hm : Within part fun x => (m x).checkTypes h (m x).info.1) :
    Within part fun x => (place.replace (m x)).undeclaredTypes h := by
  apply ClassPlace.within_replace
  apply hm.embed (place.owner.fields.flatMap (·.undeclared h) ++
      place.earlier.flatMap fun n => n.checkTypes h n.info.1)
    (place.later.flatMap fun n => n.checkTypes h n.info.1)
  intro x
  simp only [ClassDecl.undeclaredTypes, MethodPlace.ownerReplacing, List.flatMap_append,
    List.flatMap_cons, List.append_assoc]

namespace TypePlace

variable {p : Program}

def type : TypePlace p → TypeLiteral
  | field _ v | formal _ v | localVar _ v => v.var.type
  | result m => m.method.returnType

lemma retype_type (place : TypePlace p) : place.retype place.type = p := by
  cases place with
  | field c v =>
    simp only [retype, type, v.retype_type]
    exact c.replace_owner
  | formal m v =>
    simp only [retype, type, v.retype_type]
    exact m.replace_method
  | localVar m v =>
    simp only [retype, type, v.retype_type]
    exact m.replace_method
  | result m => exact m.replace_method

/-- What is told of all the other types stays the same. -/
lemma within_retype (place : TypePlace p) (h : Hierarchy) :
    Within (fun t => h.undeclared t.ty (place.toldLine t.line))
      fun t => (place.retype t).undeclaredTypes h := by
  cases place with
  | field c v =>
    apply c.within_replace
    apply (v.within_retype h).embed [] (c.owner.methods.flatMap fun m => m.checkTypes h m.info.1)
    exact fun t => rfl
  | formal m v =>
    apply m.within_replace
    apply (v.within_retype h).embed
      (h.undeclared m.method.returnType.ty m.method.returnType.line)
      (m.method.locals.flatMap (·.undeclared h))
    intro t
    rw [← List.flatMap_append]
    rfl
  | localVar m v =>
    apply m.within_replace
    apply (v.within_retype h).embed
      (h.undeclared m.method.returnType.ty m.method.returnType.line ++
        m.method.formals.flatMap (·.undeclared h)) []
    intro t
    rw [List.append_nil, List.append_assoc, ← List.flatMap_append]
    rfl
  | result m =>
    apply m.within_replace
    exact ⟨[], m.method.vars.flatMap (·.undeclared h), fun t => rfl⟩

/-- If nothing was told of the types of the program, all that is told is of the new one. -/
lemma undeclaredTypes_retype {h : Hierarchy} (hp : p.undeclaredTypes h = []) (place : TypePlace p)
    (t : TypeLiteral) :
    (place.retype t).undeclaredTypes h = h.undeclared t.ty (place.toldLine t.line) := by
  obtain ⟨ahead, behind, hwithin⟩ := place.within_retype h
  have hnil := (hwithin place.type).symm
  simp only [place.retype_type, hp, List.append_eq_nil_iff] at hnil
  obtain ⟨⟨rfl, _⟩, rfl⟩ := hnil
  simpa using hwithin t

end TypePlace

/-! ### One type exchanged -/

section Exchanged

variable {g : String}

lemma VarDecl.Retyped.refl (v : VarDecl) : v.Retyped g v := ⟨rfl, .inl rfl⟩

lemma MethodDecl.Retyped.refl (m : MethodDecl) : m.Retyped g m :=
  ⟨rfl, List.forall₂_same.2 fun v _ => .refl v, List.forall₂_same.2 fun v _ => .refl v, .inl rfl,
    rfl, rfl⟩

lemma ClassDecl.Retyped.refl (c : ClassDecl) : c.Retyped g c :=
  ⟨rfl, rfl, List.forall₂_same.2 fun v _ => .refl v, List.forall₂_same.2 fun m _ => .refl m⟩

lemma VarPlace.retyped {vars : List VarDecl} (v : VarPlace vars) (line : Line) :
    List.Forall₂ (VarDecl.Retyped g) vars (v.retype ⟨.ofClass g, line⟩) := by
  have hvar : v.var.Retyped g { v.var with type := ⟨.ofClass g, line⟩ } := ⟨rfl, .inr rfl⟩
  have hvars := forall₂_replace VarDecl.Retyped.refl v.before v.after hvar
  rw [← v.vars_eq] at hvars
  exact hvars

variable {p : Program}

lemma ClassPlace.retyped (place : ClassPlace p) {c : ClassDecl} (hc : place.owner.Retyped g c) :
    p.Retyped g (place.replace c) where
  main := rfl
  classes := by
    rw [place.classes_eq]
    exact forall₂_replace ClassDecl.Retyped.refl place.before place.after hc

lemma MethodPlace.retyped (place : MethodPlace p) {m : MethodDecl}
    (hm : place.method.Retyped g m) : p.Retyped g (place.replace m) := by
  have hmethods : List.Forall₂ (MethodDecl.Retyped g) place.owner.methods
      (place.ownerReplacing m).methods := by
    rw [place.methods_eq]
    exact forall₂_replace MethodDecl.Retyped.refl place.earlier place.later hm
  exact place.classPlace.retyped
    ⟨rfl, rfl, List.forall₂_same.2 fun v _ => .refl v, hmethods⟩

lemma TypePlace.retyped (place : TypePlace p) (line : Line) :
    p.Retyped g (place.retype ⟨.ofClass g, line⟩) := by
  cases place with
  | field c v =>
    exact c.retyped { ClassDecl.Retyped.refl c.owner with fields := v.retyped line }
  | formal m v =>
    exact m.retyped { MethodDecl.Retyped.refl m.method with formals := v.retyped line }
  | localVar m v =>
    exact m.retyped { MethodDecl.Retyped.refl m.method with locals := v.retyped line }
  | result m =>
    exact m.retyped { MethodDecl.Retyped.refl m.method with returnType := .inr rfl }

/-- The type of a field or of a local is in no signature; any other is in one that stands alone. -/
lemma TypePlace.overridesSame (hp : p.WellTyped) (place : TypePlace p) (hfree : place.Free)
    (t : TypeLiteral) : (place.retype t).OverridesSame := by
  cases place with
  | field c v =>
    have hlinks : ((field c v).retype t).Extends = p.Extends := ClassPlace.extends_replace rfl rfl
    apply hp.override_same.of_hasMethod hlinks
    intro n a s hs
    cases hs with
    | main => exact .main
    | @declared d i hd hi =>
      rcases (ClassPlace.mem_replace d).1 hd with rfl | hd
      · exact .declared (c := c.owner) c.owner_mem hi
      · exact .declared (ClassPlace.mem_of_mem_others hd) hi
  | formal m v => exact MethodPlace.overridesSame_replace hp hfree rfl
  | localVar m v =>
    have hmethods := m.hasMethod_replace (m := { m.method with locals := v.retype t }) hp.distinct
      rfl
    apply hp.override_same.of_hasMethod (MethodPlace.extends_replace _)
    intro n a s hs
    rcases (hmethods n a s).1 hs with ⟨rfl, rfl, rfl⟩ | ⟨_, hs⟩
    · exact .declared m.owner_mem m.method_mem
    · exact hs
  | result m => exact MethodPlace.overridesSame_replace hp hfree rfl

end Exchanged

namespace Program

/-- Exchange one declared type of an accepted program for a class that it does not declare. All that
is told is that there is no such class, once, whatever the variable or the method is used for. -/
theorem undeclared_type_told_once {p : Program} {checked : Checked} (hok : p.check = .ok checked)
    {g : String} (hg : g ∉ p.classNames) (place : TypePlace p) (hfree : place.Free) (line : Line) :
    (place.retype ⟨.ofClass g, line⟩).check =
      .error (.findings [⟨.undefinedClass g, place.toldLine line⟩]) := by
  have hp := (clean_iff_wellTyped p).1 ((check_eq_ok_iff p checked).1 hok).1
  have hretyped : p.Retyped g _ := place.retyped line
  have hfindings := hretyped.findings_eq hp hg (place.overridesSame hp hfree _)
  have hdeclared := hretyped.undeclaredTypes_eq_nil hp
  have htypes := place.undeclaredTypes_retype hdeclared ⟨.ofClass g, line⟩
  have hnone : ¬ ((place.retype ⟨.ofClass g, line⟩).hierarchy.get? g).isSome = true := by
    rw [isSome_get?_hierarchy, hretyped.classNames]
    exact hg
  have htold : (place.retype ⟨.ofClass g, line⟩).findings =
      [⟨.undefinedClass g, place.toldLine line⟩] := by
    rw [hfindings, htypes]
    exact if_neg hnone
  rw [check_eq_findings, htold]
  rfl

/-- `A` keeps a `B` until it is handed another one. -/
def keeper : Program where
  main := ⟨"Main", "args", .print (.call (.call (.newObject "A" none) "swap" [.newObject "C" none]
    none) "size" [] none) none, none⟩
  classes :=
    [⟨1, "A", none, [⟨⟨.ofClass "B", none⟩, "kept", some 1⟩],
        [⟨2, ⟨.ofClass "B", some 2⟩, "swap", [⟨⟨.ofClass "B", none⟩, "b", some 3⟩],
          [⟨⟨.ofClass "B", none⟩, "old", some 4⟩],
          [.assign "old" (.identifier "kept" none) none,
            .assign "kept" (.identifier "b" none) none],
          .identifier "old" none, none⟩], none⟩,
      ⟨3, "B", none, [], [⟨4, ⟨.int, none⟩, "size", [], [], [], .intLiteral 0 none, none⟩], none⟩,
      ⟨5, "C", some "B", [], [], none⟩]
  line := none

def keeperSwap : MethodPlace keeper := ⟨[], _, _, rfl, [], _, [], rfl⟩

/-- Each type around the kept object may be missing, and is told on its own line. -/
theorem undeclared_type_told_once_keeper :
    keeper.check = .ok ⟨keeper, keeper.hierarchy⟩ ∧ keeperSwap.Sole ∧
      ((TypePlace.field keeperSwap.classPlace ⟨[], _, [], rfl⟩).retype ⟨.ofClass "G", none⟩).check =
        .error (.findings [⟨.undefinedClass "G", some 1⟩]) ∧
      ((TypePlace.result keeperSwap).retype ⟨.ofClass "G", some 2⟩).check =
        .error (.findings [⟨.undefinedClass "G", some 2⟩]) ∧
      ((TypePlace.formal keeperSwap ⟨[], _, [], rfl⟩).retype ⟨.ofClass "G", none⟩).check =
        .error (.findings [⟨.undefinedClass "G", some 3⟩]) ∧
      ((TypePlace.localVar keeperSwap ⟨[], _, [], rfl⟩).retype ⟨.ofClass "G", none⟩).check =
        .error (.findings [⟨.undefinedClass "G", some 4⟩]) := by
  have hok : keeper.check = .ok ⟨keeper, keeper.hierarchy⟩ := by rfl
  have hg : "G" ∉ keeper.classNames := by decide
  have hsole : keeperSwap.Sole := by decide
  refine ⟨hok, hsole, undeclared_type_told_once hok hg _ ?_ _,
    undeclared_type_told_once hok hg _ ?_ _, undeclared_type_told_once hok hg _ ?_ _,
    undeclared_type_told_once hok hg _ ?_ _⟩
  · trivial
  · exact hsole
  · exact hsole
  · trivial

end Program

end MiniJava
