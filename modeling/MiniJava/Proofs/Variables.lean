import MiniJava.Proofs.Nearest
import MiniJava.Proofs.ScopeDiscipline

/-!
# What variables stand for

Inside a method a name is looked up in the scopes that are open when the body is inspected. Here it
is said which declaration in the text of the program that leads to: a formal, else a local, else a
field of the nearest class up the chain, and of several in the same place the first. It holds
whatever names are declared twice, and on a circle of superclasses too.
-/

namespace MiniJava

open Inspection

namespace Program

variable {p : Program} {c : ClassDecl}

/-- A name inside a method of a class. What comes first hides all that follows it. -/
inductive VariableType (p : Program) (c : ClassDecl) (m : MethodDecl) (x : String) (t : Ty) : Prop
  | formal (ht : VarDecl.firstType? x m.formals = some t)
  | ofLocal (hformals : x ∉ m.formals.map VarDecl.name)
      (ht : VarDecl.firstType? x m.locals = some t)
  | field (hformals : x ∉ m.formals.map VarDecl.name) (hlocals : x ∉ m.locals.map VarDecl.name)
      {n : Nat} {d : TopDecl}
      (hd : FirstUp p.climb (fun e => x ∈ e.fields.map VarDecl.name) (.ordinary c) n d)
      (ht : VarDecl.firstType? x d.fields = some t)

/-- In a class a name is a field of the nearest class that has one. -/
lemma resolve_inClass_iff (hc : p.hierarchy.Bound c.info.1) (x : String) (t : Ty) :
    (Context.inClass p.hierarchy ⟨c.info.1, .empty⟩).env.resolve x = some t ↔
      ∃ n d, FirstUp p.climb (fun e => x ∈ e.fields.map VarDecl.name) (.ordinary c) n d ∧
        VarDecl.firstType? x d.fields = some t := by
  have hHas : ∀ d : TopDecl,
      (d.info.fields.get? x).isSome = true ↔ x ∈ d.fields.map VarDecl.name := by
    intro d
    rw [d.get?_fields, VarDecl.firstType?_isSome_iff]
  have hwalk := findSome?_walk_info_iff (f := fun o => o.fields.get? x) hHas (s := .ordinary c) hc t
  simp only [TopDecl.get?_fields] at hwalk
  rw [resolve_inClass]
  exact hwalk

lemma resolve_methodContext_iff_variableType (hc : p.hierarchy.Bound c.info.1) (m : MethodDecl)
    (x : String) (t : Ty) :
    (p.methodContext c m).env.resolve x = some t ↔ p.VariableType c m x t := by
  have hnone : ∀ ds, VarDecl.firstType? x ds = none ↔ x ∉ ds.map VarDecl.name := by
    intro ds
    rw [← VarDecl.firstType?_isSome_iff, Option.not_isSome_iff_eq_none]
  rw [methodContext, Context.enter, Env.resolve_enter, MethodDecl.get?_scope, Option.or_eq_some_iff,
    Option.or_eq_some_iff, Option.or_eq_none_iff, resolve_inClass_iff hc, hnone, hnone]
  constructor
  · rintro ((ht | ⟨hformals, ht⟩) | ⟨⟨hformals, hlocals⟩, n, d, hd, ht⟩)
    · exact .formal ht
    · exact .ofLocal hformals ht
    · exact .field hformals hlocals hd ht
  · rintro (ht | ⟨hformals, ht⟩ | ⟨hformals, hlocals, hd, ht⟩)
    · exact .inl (.inl ht)
    · exact .inl (.inr ⟨hformals, ht⟩)
    · exact .inr ⟨⟨hformals, hlocals⟩, _, _, hd, ht⟩

/-- The inspection of a program comes by each method body that is not skipped, and in the context
that it has then every name stands for what the text of the method, of its class and of the classes
above says, and no other name for anything. The main statement has its argument and nothing else.
A declaration may be listed more than once, but two different ones never share a number. -/
theorem variables_resolve_to_nearest {p : Program} (hclasses : p.IdentifiedByNumber)
    (hmethods : ∀ c ∈ p.classes, c.IdentifiedByNumber) :
    (∀ (place : MethodPlace p) (owner : ClassInfo) (i : MethodInfo),
      place.owner.live? p.hierarchy = some owner → place.method.live? owner = some i →
      p.inspect p.hierarchy = (do
        let outer := (← get).context
        place.approach p.hierarchy owner i
        place.method.inspectBody p.hierarchy i
        place.departure p.hierarchy owner outer) ∧
      ∃ inner ds, (∀ ctx, (place.approach p.hierarchy owner i).Comes ctx () inner ds) ∧
        ∀ x t, inner.env.resolve x = some t ↔ p.VariableType place.owner place.method x t) ∧
    p.inspect p.hierarchy = (do
      p.main.inspect p.hierarchy
      p.classes.forM (·.inspectFresh p.hierarchy)) ∧
    ∃ scope : Scope Ty,
      p.main.inspect p.hierarchy = within ⟨p.main.info, .empty⟩ (do
        openScope scope
        p.main.body.inspect p.hierarchy
        closeScope) ∧
      ∀ x, (Context.enter ⟨p.main.info, .empty⟩ scope).env.resolve x =
        if x = p.main.arg then some .stringArray else none := by
  refine ⟨fun place owner i howner hm => ?_, rfl, ?_⟩
  · refine ⟨place.inspect_eq howner hm, _, _,
      fun ctx => place.approach_comes p.context?_mainClass, ?_⟩
    have hget : p.hierarchy.get? place.owner.name = some owner :=
      (Option.filter_eq_some_iff.1 howner).1
    have howned : place.owner ∈ p.classes := by simp [place.classes_eq]
    have hlisted : place.method ∈ place.owner.methods := by simp [place.methods_eq]
    -- no other declaration has these numbers, so what is known is what these two declare
    obtain ⟨_, rfl⟩ := (live?_eq_some_iff hclasses howned owner).1 howner
    obtain ⟨_, rfl⟩ :=
      (ClassDecl.live?_method_eq_some_iff (hmethods _ howned) hlisted i).1 hm
    exact resolve_methodContext_iff_variableType hget place.method
  · refine ⟨_, ?_, p.resolve_mainContext⟩
    rw [MainClass.inspect, get?_hierarchy_main]
    rfl

/-- Three classes in a circle, and a method in the first of them. The same names are declared by
several of them, and `x` and `v` twice in one list. -/
def shadowing : Program where
  main := ⟨"Main", "args", .block [] none, none⟩
  classes :=
    [⟨1, "A", some "B", [⟨⟨.boolean, none⟩, "y", none⟩, ⟨⟨.boolean, none⟩, "z", none⟩],
        [⟨2, ⟨.int, none⟩, "f", [⟨⟨.int, none⟩, "x", none⟩, ⟨⟨.boolean, none⟩, "x", none⟩],
          [⟨⟨.boolean, none⟩, "x", none⟩, ⟨⟨.intArray, none⟩, "y", none⟩], [],
          .intLiteral 1 none, none⟩], none⟩,
      ⟨3, "B", some "C", [⟨⟨.int, none⟩, "z", none⟩, ⟨⟨.ofClass "C", none⟩, "v", none⟩,
        ⟨⟨.int, none⟩, "v", none⟩], [], none⟩,
      ⟨4, "C", some "A", [⟨⟨.int, none⟩, "v", none⟩, ⟨⟨.ofClass "D", none⟩, "w", none⟩], [], none⟩]
  line := none

/-- The place of the method. -/
def shadowingFirst : MethodPlace shadowing where
  before := []
  owner := shadowing.classes.head (by decide)
  after := shadowing.classes.tail
  classes_eq := rfl
  earlier := []
  method := (shadowing.classes.head (by decide)).methods.head (by decide)
  later := []
  methods_eq := rfl

/-- Five names of the method, each from another place: a formal, a local, and fields none, one and
two steps up. -/
theorem variables_resolve_to_nearest_shadowing :
    shadowing.IdentifiedByNumber ∧ (∀ c ∈ shadowing.classes, c.IdentifiedByNumber) ∧ ∃ owner i,
      shadowingFirst.owner.live? shadowing.hierarchy = some owner ∧
      shadowingFirst.method.live? owner = some i ∧
      ∃ inner ds,
        (∀ ctx, (shadowingFirst.approach shadowing.hierarchy owner i).Comes ctx () inner ds) ∧
        ["x", "y", "z", "v", "w"].map inner.env.resolve =
          [some .int, some .intArray, some .boolean, some (.object "C"), some (.object "D")] := by
  have hnumbers : ∀ c ∈ shadowing.classes, (c.methods.map MethodDecl.id).Nodup := by decide
  have hclasses : shadowing.IdentifiedByNumber :=
    DistinctNumbers.identified ⟨by decide, hnumbers⟩
  have hmethods : ∀ c ∈ shadowing.classes, c.IdentifiedByNumber :=
    fun c hc => ClassDecl.identified_of_nodup (hnumbers c hc)
  obtain ⟨hplaces, _⟩ := variables_resolve_to_nearest hclasses hmethods
  obtain ⟨_, inner, ds, hcomes, hresolve⟩ := hplaces shadowingFirst _ _ rfl rfl
  have hx := (hresolve "x" .int).2 (.formal rfl)
  have hy := (hresolve "y" .intArray).2 (.ofLocal (by decide) rfl)
  have hz := (hresolve "z" .boolean).2 (.field (by decide) (by decide)
    (.of_forall_lt (n := 0) rfl (by decide) (by decide)) rfl)
  have hv := (hresolve "v" (.object "C")).2 (.field (by decide) (by decide)
    (.of_forall_lt (n := 1) rfl (by decide) (by decide)) rfl)
  have hw := (hresolve "w" (.object "D")).2 (.field (by decide) (by decide)
    (.of_forall_lt (n := 2) rfl (by decide) (by decide)) rfl)
  exact ⟨hclasses, hmethods, _, _, rfl, rfl, inner, ds, hcomes, by simp [hx, hy, hz, hv, hw]⟩

end Program

end MiniJava
