import Mathlib.Tactic.Lemma
import MiniJava.Check

/-!
# The findings of a check

Checking a declaration opens and closes scopes and keeps a trail. Here its effect is described in
one piece: the check never fails on its scopes, leaves the context as it should, and its
diagnostics are given by a function of the declaration and the context.
-/

namespace MiniJava

namespace Trail

variable {α β : Type}

/-- The check comes to `a`, and `ds` is found on the way. -/
structure Finds (t : Trail α) (a : α) (ds : List Diagnostic) : Prop where
  outcome : t.outcome = .ok a
  diagnostics : t.diagnostics = ds

namespace Finds

lemma of_pure (a : α) : (pure a : Trail α).Finds a [] := ⟨rfl, rfl⟩

lemma of_report (ds : List Diagnostic) : (report ds).Finds () ds :=
  ⟨rfl, diagnostics_map_reported ds⟩

lemma andThen {t : Trail α} {next : α → Trail β} {a : α} {b : β} {ds es : List Diagnostic}
    (ht : t.Finds a ds) (hnext : (next a).Finds b es) : (t >>= next).Finds b (ds ++ es) := by
  obtain ⟨events, outcome⟩ := t
  obtain ⟨hok, hds⟩ := ht
  change outcome = .ok a at hok
  subst hok
  refine ⟨hnext.outcome, ?_⟩
  change MiniJava.diagnostics (events ++ (next a).events) = ds ++ es
  rw [diagnostics_append, ← hds, ← hnext.diagnostics]
  rfl

lemma thenQuiet {t : Trail α} {next : α → Trail β} {a : α} {b : β} {ds : List Diagnostic}
    (ht : t.Finds a ds) (hnext : (next a).Finds b []) : (t >>= next).Finds b ds := by
  simpa using ht.andThen hnext

end Finds

end Trail

namespace MethodDecl

/-- What is found in a method, in a context of its class. -/
def findings (h : Hierarchy) (ctx : Context) (d : MethodDecl) : List Diagnostic :=
  match d.live? ctx.owner with
  | none => []
  | some m => d.checkTypes h m ++ d.checkBody h (ctx.enter m.scope) m

theorem check_finds (h : Hierarchy) (ctx : Context) (d : MethodDecl) :
    (d.check h ctx).Finds ctx (d.findings h ctx) := by
  unfold check findings
  cases d.live? ctx.owner with
  | none => exact ⟨rfl, rfl⟩
  | some m =>
    have hleave : (ctx.enter m.scope).leave.Finds ctx [] := ⟨rfl, rfl⟩
    exact (Trail.Finds.of_report _).thenQuiet hleave

theorem checkAll_finds (h : Hierarchy) (ctx : Context) (ds : List MethodDecl) :
    (checkAll h ctx ds).Finds ctx (ds.flatMap (findings h ctx)) := by
  induction ds with
  | nil => exact .of_pure ctx
  | cons d ds ih =>
    rw [List.flatMap_cons]
    exact (d.check_finds h ctx).andThen ih

end MethodDecl

/-- The context for the methods of a class: its fields and those of its ancestors are open. -/
def Context.inClass (h : Hierarchy) (ctx : Context) : Context :=
  ctx.enterAll (ctx.owner.fieldsBelow (h.ancestors ctx.owner))

lemma Context.leaveAll_finds (ctx : Context) :
    ctx.leaveAll.Finds { ctx with env := .empty } [] := by
  unfold Context.leaveAll
  rw [Env.leaveMany_depth]
  exact .of_pure _

namespace ClassDecl

/-- What is found in a class declaration. -/
def findings (h : Hierarchy) (ctx : Context) (d : ClassDecl) : List Diagnostic :=
  d.checkSuper h ctx.owner ++ d.fields.flatMap (·.undeclared h) ++
    d.methods.flatMap (·.findings h (ctx.inClass h)) ++
    d.overrideMismatches ctx.owner (h.ancestors ctx.owner)

theorem check_finds (h : Hierarchy) (ctx : Context) (d : ClassDecl) :
    (d.check h ctx).Finds { ctx with env := .empty } (d.findings h ctx) := by
  have hstart : (Trail.tell [.checkingClass d.name]).Finds () [] := ⟨rfl, rfl⟩
  have hmethods := MethodDecl.checkAll_finds h (ctx.inClass h) d.methods
  have hleave := (ctx.inClass h).leaveAll_finds
  have hsteps : d.findings h ctx =
      [] ++ (d.checkSuper h ctx.owner ++ d.fields.flatMap (·.undeclared h) ++
        (d.methods.flatMap (·.findings h (ctx.inClass h)) ++
          ([] ++ d.overrideMismatches ctx.owner (h.ancestors ctx.owner)))) := by
    simp [findings]
  rw [hsteps]
  exact hstart.andThen ((Trail.Finds.of_report _).andThen (hmethods.andThen (hleave.andThen
    ((Trail.Finds.of_report _).thenQuiet (.of_pure _)))))

/-- What is found in a class of a program: nothing in one that is not known by its name. -/
def freshFindings (h : Hierarchy) (d : ClassDecl) : List Diagnostic :=
  match d.live? h with
  | none => []
  | some owner => d.findings h ⟨owner, .empty⟩

theorem checkFresh_finds (h : Hierarchy) (d : ClassDecl) :
    (d.checkFresh h).Finds () (d.freshFindings h) := by
  unfold checkFresh freshFindings
  cases d.live? h with
  | none => exact ⟨rfl, rfl⟩
  | some owner => exact (d.check_finds h ⟨owner, .empty⟩).thenQuiet (.of_pure ())

end ClassDecl

/-- The context of a method body, if the method and its class are known by their names. -/
def MethodDecl.context? (h : Hierarchy) (c : ClassDecl) (d : MethodDecl) : Option Context :=
  (c.live? h).bind fun owner =>
    (d.live? owner).map fun m => (Context.inClass h ⟨owner, .empty⟩).enter m.scope

/-- The context of the main statement, if the main class is known by its name. -/
def MainClass.context? (h : Hierarchy) (m : MainClass) : Option Context :=
  (h.get? m.name).bind fun owner =>
    (owner.methods.get? mainMethod).map fun method => Context.enter ⟨owner, .empty⟩ method.scope

lemma MainClass.check_finds {h : Hierarchy} {m : MainClass} {ctx : Context}
    (hctx : m.context? h = some ctx) : (m.check h).Finds () (m.body.check h ctx) := by
  obtain ⟨owner, howner, hmap⟩ := Option.bind_eq_some_iff.1 hctx
  obtain ⟨method, hmethod, rfl⟩ := Option.map_eq_some_iff.1 hmap
  unfold check
  rw [howner]
  simp only [hmethod]
  have hleave : (Context.enter ⟨owner, .empty⟩ method.scope).leave.Finds ⟨owner, .empty⟩ [] :=
    ⟨rfl, rfl⟩
  exact (Trail.Finds.of_report _).thenQuiet (hleave.thenQuiet (.of_pure ()))

namespace Program

/-- The second pass finds what is wrong with the main statement, then with each class in order. -/
theorem checkAgainst_finds {h : Hierarchy} {p : Program} {ctx : Context}
    (hctx : p.main.context? h = some ctx) :
    (p.checkAgainst h).Finds ()
      (p.main.body.check h ctx ++ p.classes.flatMap (·.freshFindings h)) := by
  refine (MainClass.check_finds hctx).andThen ?_
  induction p.classes with
  | nil => exact .of_pure ()
  | cons d ds ih =>
    rw [List.flatMap_cons]
    exact (d.checkFresh_finds h).andThen ih

end Program

end MiniJava
