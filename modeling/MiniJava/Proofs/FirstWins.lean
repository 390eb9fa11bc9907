import Mathlib.Data.List.Forall2
import MiniJava.Proofs.Collecting
import MiniJava.Session

/-!
# The first declaration of a name wins

What the collection of any number of programs comes to. The classes that are known are the first of
each name, as they were declared, and stay so whatever is collected later. Every other declaration
of a class, a field, a method, a parameter or a local is told in its place, and nothing else is.
-/

namespace MiniJava

/-- A class of a program: the main class or one of the others. -/
inductive TopDecl where
  | main (m : MainClass)
  | ordinary (d : ClassDecl)

namespace TopDecl

def name : TopDecl → String
  | main m => m.name
  | ordinary d => d.name

def line : TopDecl → Line
  | main m => m.line
  | ordinary d => d.line

def info : TopDecl → ClassInfo
  | main m => m.info
  | ordinary d => d.info.1

end TopDecl

/-- The classes of a program in the order in which they are collected. -/
def Program.topDecls (p : Program) : List TopDecl := .main p.main :: p.classes.map .ordinary

/-! ### What is told -/

/-- The variables of a list that repeat a taken or an earlier name. -/
def VarDecl.repeats (taken : List String) (ds : List VarDecl) : List Diagnostic :=
  (withEarlier VarDecl.name ds).flatMap fun x => duplicate (taken ++ x.1) x.2.name x.2.line

/-- The formals that repeat an earlier formal, then the locals that repeat a formal or an earlier
local. -/
def MethodDecl.repeats (d : MethodDecl) : List Diagnostic :=
  VarDecl.repeats [] d.formals ++ VarDecl.repeats (d.formals.map VarDecl.name) d.locals

/-- The repeated fields, then method by method whether its name is repeated and what is repeated in
it. -/
def ClassDecl.repeats (d : ClassDecl) : List Diagnostic :=
  VarDecl.repeats [] d.fields ++ (withEarlier MethodDecl.name d.methods).flatMap fun x =>
    duplicate x.1 x.2.name x.2.line ++ x.2.repeats

def TopDecl.repeats : TopDecl → List Diagnostic
  | main _ => []
  | ordinary d => d.repeats

/-- Class by class, the main class first, whether its name is known or repeated and what is repeated
in it. -/
def Program.repeats (known : List String) (p : Program) : List Diagnostic :=
  (withEarlier TopDecl.name p.topDecls).flatMap fun x =>
    duplicate (known ++ x.1) x.2.name x.2.line ++ x.2.repeats

lemma VarDecl.told_declareVar (ds : List VarDecl) :
    (gather Bindings.declareVar .empty ds).2 = VarDecl.repeats [] ds := by
  simp [declaring_declareVar.told_gather, VarDecl.repeats]

namespace MethodDecl

lemma params_entries (d : MethodDecl) : d.info.1.params.entries =
    (firsts [] VarDecl.name d.formals).map fun v => (v.name, v.ty) :=
  declaring_declareVar.entries_gather d.formals .empty

lemma mem_params_names (d : MethodDecl) (x : String) :
    x ∈ d.info.1.params.names ↔ x ∈ d.formals.map VarDecl.name := by
  have hmem : x ∈ [] ++ (firsts [] VarDecl.name d.formals).map VarDecl.name ↔
      x ∈ [] ++ d.formals.map VarDecl.name := mem_append_firsts_iff [] d.formals x
  simpa [Bindings.names, params_entries] using hmem

lemma locals_entries (d : MethodDecl) : d.info.1.locals.entries =
    (firsts (d.formals.map VarDecl.name) VarDecl.name d.locals).map fun v => (v.name, v.ty) := by
  have hlocals := (declaring_declareLocal d.info.1.params).entries_gather d.locals .empty
  have htaken : firsts (d.info.1.params.names ++ []) VarDecl.name d.locals =
      firsts (d.formals.map VarDecl.name) VarDecl.name d.locals := by
    apply firsts_congr
    intro x
    rw [List.append_nil, mem_params_names]
  rw [Bindings.names_empty, htaken] at hlocals
  exact hlocals

theorem info_told (d : MethodDecl) : d.info.2 = d.repeats := by
  have hlocals := (declaring_declareLocal d.info.1.params).told_gather d.locals .empty
  have htaken : (withEarlier VarDecl.name d.locals).flatMap (fun x =>
        duplicate ((d.info.1.params.names ++ []) ++ x.1) x.2.name x.2.line ++ []) =
      VarDecl.repeats (d.formals.map VarDecl.name) d.locals := by
    apply List.flatMap_congr
    intro x _
    rw [List.append_nil, List.append_nil]
    apply duplicate_congr
    intro y
    rw [List.mem_append, List.mem_append, mem_params_names]
  rw [Bindings.names_empty, htaken] at hlocals
  calc d.info.2
      = (gather Bindings.declareVar .empty d.formals).2 ++
          (gather (Bindings.declareLocal d.info.1.params) .empty d.locals).2 := rfl
    _ = d.repeats := by rw [VarDecl.told_declareVar, hlocals, repeats]

end MethodDecl

theorem ClassDecl.info_told (d : ClassDecl) : d.info.2 = d.repeats := by
  have hmethods := declaring_declareMethod.told_gather d.methods .empty
  simp only [Bindings.names_empty, List.nil_append, MethodDecl.info_told] at hmethods
  calc d.info.2
      = (gather Bindings.declareVar .empty d.fields).2 ++
          (gather Bindings.declareMethod .empty d.methods).2 := rfl
    _ = d.repeats := by rw [VarDecl.told_declareVar, hmethods, repeats]

/-! ### Programs as sequences of classes -/

namespace Hierarchy

def declareTop (h : Hierarchy) (d : TopDecl) : Hierarchy × List Diagnostic :=
  let r := h.declare d.name d.info d.line
  (r.1, r.2 ++ d.repeats)

lemma declaring_declareTop :
    Declaring declareTop (fun h => h.own.names) (fun h => h.own.entries) TopDecl.name TopDecl.info
      TopDecl.line TopDecl.repeats :=
  declaring_declare TopDecl.name TopDecl.info TopDecl.line TopDecl.repeats

lemma collect_eq_gather (h : Hierarchy) (p : Program) :
    h.collect p = gather declareTop h p.topDecls := by
  have hmain : h.declareTop (.main p.main) = h.declareMain p.main := by
    simp [declareTop, declareMain, TopDecl.name, TopDecl.info, TopDecl.line, TopDecl.repeats]
  have hclass : (fun (h : Hierarchy) (d : ClassDecl) => h.declareTop (.ordinary d)) =
      declareClass := by
    funext h d
    simp [declareTop, declareClass, TopDecl.name, TopDecl.info, TopDecl.line, TopDecl.repeats,
      d.info_told]
  rw [Program.topDecls, gather, gather_map, hmain, hclass]
  rfl

theorem told_collect (h : Hierarchy) (p : Program) : (h.collect p).2 = p.repeats h.own.names := by
  rw [collect_eq_gather, declaring_declareTop.told_gather]
  rfl

/-- The new classes come behind the old ones. -/
theorem entries_collect (h : Hierarchy) (p : Program) :
    (h.collect p).1.own.entries = h.own.entries ++
      (firsts h.own.names TopDecl.name p.topDecls).map fun d => (d.name, d.info) := by
  rw [collect_eq_gather, declaring_declareTop.entries_gather]

end Hierarchy

/-- Whatever was collected before, the collection of a program tells the repeated declarations, each
once and in its place, and adds them to the report. -/
theorem Session.collect_tells_repeats (s : Session) (p : Program) :
    (s.collect p).2 = p.repeats s.hierarchy.own.names ∧
      (s.collect p).1.report = s.report.addAll (p.repeats s.hierarchy.own.names) := by
  have htold := s.hierarchy.told_collect p
  exact ⟨htold, congrArg s.report.addAll htold⟩

/-! ### What is known -/

/-- The parameters are the first formals of their names, the locals the first among those locals
that no formal is called like. -/
structure MethodDecl.Describes (d : MethodDecl) (m : MethodInfo) : Prop where
  name : m.name = d.name
  returnType : m.returnType = d.returnType.ty
  origin : m.origin = .declared d.id d.line
  params : m.params.entries = (firsts [] VarDecl.name d.formals).map fun v => (v.name, v.ty)
  locals : m.locals.entries = (firsts [] VarDecl.name
    (d.locals.filter fun v => v.name ∉ d.formals.map VarDecl.name)).map fun v => (v.name, v.ty)
  disjoint : m.params.names.Disjoint m.locals.names

/-- Fields and methods are the first of their names. -/
structure ClassDecl.Describes (d : ClassDecl) (c : ClassInfo) : Prop where
  name : c.name = d.name
  superName : c.superName = d.superName
  origin : c.origin = .declared d.id d.line
  fields : c.fields.entries = (firsts [] VarDecl.name d.fields).map fun v => (v.name, v.ty)
  methods : List.Forall₂ (fun m e => e.1 = m.name ∧ m.Describes e.2)
    (firsts [] MethodDecl.name d.methods) c.methods.entries

/-- Nothing but the method `main`, from an array of strings to nothing. -/
structure MainClass.Describes (m : MainClass) (c : ClassInfo) : Prop where
  name : c.name = m.name
  superName : c.superName = none
  fields : c.fields.entries = []
  methods : ∃ i, c.methods.entries = [("main", i)] ∧ i.name = "main" ∧ i.returnType = .void ∧
    i.params.entries = [(m.arg, .stringArray)] ∧ i.locals.entries = []

def TopDecl.Describes : TopDecl → ClassInfo → Prop
  | main m => m.Describes
  | ordinary d => d.Describes

lemma MethodDecl.describes_info (d : MethodDecl) : d.Describes d.info.1 where
  name := rfl
  returnType := rfl
  origin := rfl
  params := d.params_entries
  locals := by rw [← firsts_filter, d.locals_entries]
  disjoint := by
    intro x hparam hlocal
    rw [mem_params_names] at hparam
    rw [Bindings.names, locals_entries, List.map_map] at hlocal
    obtain ⟨v, hv, rfl⟩ := List.mem_map.1 hlocal
    exact not_mem_taken_of_mem_firsts hv hparam

lemma ClassDecl.describes_info (d : ClassDecl) : d.Describes d.info.1 where
  name := rfl
  superName := rfl
  origin := rfl
  fields := d.entries_fields_firsts
  methods := by
    rw [d.entries_methods_firsts, List.forall₂_map_right_iff, List.forall₂_same]
    exact fun m _ => ⟨rfl, m.describes_info⟩

lemma TopDecl.describes_info (d : TopDecl) : d.Describes d.info := by
  cases d with
  | main m => exact ⟨rfl, rfl, rfl, _, rfl, rfl, rfl, rfl, rfl⟩
  | ordinary d => exact d.describes_info

namespace Session

lemma collectAll_append (s : Session) (ps qs : List Program) :
    s.collectAll (ps ++ qs) = (s.collectAll ps).collectAll qs :=
  List.foldl_append

lemma outer_collectAll (s : Session) (ps : List Program) :
    (s.collectAll ps).hierarchy.outer = s.hierarchy.outer := by
  induction ps generalizing s with
  | nil => rfl
  | cons p ps ih =>
    calc ((s.collect p).1.collectAll ps).hierarchy.outer
        = (s.hierarchy.collect p).1.outer := ih _
      _ = s.hierarchy.outer := Program.outer_collect _ p

/-- The table after any number of programs: the old classes, then the first new one of each name. -/
theorem entries_collectAll (s : Session) (ps : List Program) :
    (s.collectAll ps).hierarchy.own.entries = s.hierarchy.own.entries ++
      (firsts s.hierarchy.own.names TopDecl.name (ps.flatMap Program.topDecls)).map
        fun d => (d.name, d.info) := by
  induction ps generalizing s with
  | nil => simp [collectAll, firsts_nil]
  | cons p ps ih =>
    have hfirst := s.hierarchy.entries_collect p
    have hnames : firsts (s.hierarchy.collect p).1.own.names TopDecl.name
          (ps.flatMap Program.topDecls) =
        firsts (s.hierarchy.own.names ++ p.topDecls.map TopDecl.name) TopDecl.name
          (ps.flatMap Program.topDecls) := by
      apply firsts_congr
      intro x
      rw [← mem_append_firsts_iff, Bindings.names, hfirst]
      simp [Bindings.names]
    calc ((s.collect p).1.collectAll ps).hierarchy.own.entries
        = (s.hierarchy.collect p).1.own.entries ++ _ := ih _
      _ = _ := by
        rw [List.flatMap_cons, firsts_append, List.map_append, ← List.append_assoc, ← hfirst,
          ← hnames]
        rfl

lemma mem_names_collectAll {ps : List Program} {p : Program} (hp : p ∈ ps) (s : Session)
    {d : TopDecl} (hd : d ∈ p.topDecls) : d.name ∈ (s.collectAll ps).hierarchy.own.names := by
  have hall : d ∈ ps.flatMap Program.topDecls := List.mem_flatMap.2 ⟨p, hp, hd⟩
  have hmem := (mem_append_firsts_iff s.hierarchy.own.names (ps.flatMap Program.topDecls)
    d.name).2 (List.mem_append_right _ (List.mem_map_of_mem hall))
  rw [Bindings.names, entries_collectAll]
  simpa [Bindings.names] using hmem

/-- Collect any programs, one after another. The classes known then are, in the order of the texts,
the first of each name as it was declared there. Whatever is collected later comes behind them, and
a program collected once more adds nothing. -/
theorem first_declaration_wins (ps : List Program) :
    let h := (Session.collectAll {} ps).hierarchy
    h.outer = [] ∧
    List.Forall₂ (fun d e => e.1 = d.name ∧ d.Describes e.2)
      (firsts [] TopDecl.name (ps.flatMap Program.topDecls)) h.own.entries ∧
    (∀ qs, h.own.entries <+: (Session.collectAll {} (ps ++ qs)).hierarchy.own.entries) ∧
    ∀ p ∈ ps, (h.collect p).1 = h := by
  intro h
  have houter : h.outer = [] := outer_collectAll {} ps
  refine ⟨houter, ?_, ?_, ?_⟩
  · have hentries : h.own.entries = (firsts [] TopDecl.name (ps.flatMap Program.topDecls)).map
        fun d => (d.name, d.info) := entries_collectAll {} ps
    rw [hentries, List.forall₂_map_right_iff, List.forall₂_same]
    exact fun d _ => ⟨rfl, d.describes_info⟩
  · intro qs
    rw [collectAll_append, entries_collectAll (collectAll {} ps)]
    exact List.prefix_append _ _
  · intro p hp
    have hnone : firsts h.own.names TopDecl.name p.topDecls = [] :=
      firsts_of_taken fun d hd => mem_names_collectAll hp {} hd
    have hown : (h.collect p).1.own = h.own := by
      apply Bindings.ext
      rw [Hierarchy.entries_collect, hnone, List.map_nil, List.append_nil]
    have hout := Program.outer_collect h p
    calc (h.collect p).1
        = ⟨(h.collect p).1.own, (h.collect p).1.outer⟩ := rfl
      _ = h := by rw [hown, hout]

end Session

end MiniJava
