import MiniJava.Hierarchy.Collect
import MiniJava.Proofs.Firsts
import MiniJava.Proofs.Rules

/-!
# What the collection finds

Formals, locals, fields, methods and classes are all collected alike: a name that is taken is a
finding, a fresh one is entered behind the others. Hence the tables hold the first declaration of
each name, and every later one is told. Nothing is found exactly where no name is declared twice,
and then the tables hold the declarations as they are written.
-/

namespace MiniJava

namespace Bindings

variable {α : Type}

@[simp] lemma names_empty : (empty : Bindings α).names = [] := rfl

lemma nodup_names (b : Bindings α) : b.names.Nodup := b.nodup

lemma get?_eq_some_iff (b : Bindings α) (name : String) (value : α) :
    b.get? name = some value ↔ (name, value) ∈ b.entries := by
  rw [get?, List.lookup_eq_some_iff]
  constructor
  · rintro ⟨before, after, heq, _⟩
    simp [heq]
  · intro hmem
    obtain ⟨before, after, heq⟩ := List.append_of_mem hmem
    refine ⟨before, after, heq, ?_⟩
    intro e he
    have hnodup := b.nodup
    rw [heq, List.map_append, List.nodup_append] at hnodup
    have hne := hnodup.2.2 e.1 (List.mem_map_of_mem he) name (by simp)
    simpa using fun h => hne h.symm

lemma declare_taken {b : Bindings α} {name : String} (hmem : name ∈ b.names) (value : α)
    (line : Line) : b.declare name value line = (b, [⟨.duplicateDefinition name, line⟩]) := by
  rw [declare, (put_eq_error_iff b name value).2 hmem]

lemma declare_fresh {b : Bindings α} {name : String} (hmem : name ∉ b.names) (value : α)
    (line : Line) : (b.declare name value line).1.entries = b.entries ++ [(name, value)] ∧
      (b.declare name value line).2 = [] := by
  cases hput : b.put name value with
  | ok c =>
    rw [declare, hput]
    exact ⟨entries_of_put hput, rfl⟩
  | error d =>
    rw [put, dif_neg hmem] at hput
    cases hput

end Bindings

lemma gather_map {σ δ ε : Type} (step : σ → δ → σ × List Diagnostic) (f : ε → δ) (s : σ)
    (ds : List ε) : gather step s (ds.map f) = gather (fun s d => step s (f d)) s ds := by
  induction ds generalizing s with
  | nil => rfl
  | cons d ds ih => simp only [List.map_cons, gather, ih]

/-- The finding that a name is taken. -/
def duplicate (taken : List String) (name : String) (line : Line) : List Diagnostic :=
  if name ∈ taken then [⟨.duplicateDefinition name, line⟩] else []

lemma duplicate_congr {s t : List String} (hst : ∀ x, x ∈ s ↔ x ∈ t) (name : String)
    (line : Line) : duplicate s name line = duplicate t name line := by
  simp [duplicate, hst]

/-- Where no name repeats there is nothing to tell but of the items themselves. -/
lemma flatMap_duplicate_of_nodup {δ : Type} {key : δ → String} {taken : List String} {ds : List δ}
    (hnodup : (taken ++ ds.map key).Nodup) (line : δ → Line) (more : δ → List Diagnostic) :
    (withEarlier key ds).flatMap (fun x =>
      duplicate (taken ++ x.1) (key x.2) (line x.2) ++ more x.2) = ds.flatMap more := by
  have hmore : (withEarlier key ds).flatMap (fun x =>
      duplicate (taken ++ x.1) (key x.2) (line x.2) ++ more x.2) =
        (withEarlier key ds).flatMap fun x => more x.2 := by
    apply List.flatMap_congr
    intro x hx
    rw [duplicate, if_neg (not_mem_earlier hnodup hx), List.nil_append]
  rw [hmore, ← List.flatMap_map, map_snd_withEarlier]

/-- A step that enters each item under its name, behind the earlier ones, unless the name is taken.
`more` is what the step tells of the item itself. -/
structure Declaring {σ δ α : Type} (step : σ → δ → σ × List Diagnostic) (taken : σ → List String)
    (entries : σ → List (String × α)) (key : δ → String) (value : δ → α) (line : δ → Line)
    (more : δ → List Diagnostic) : Prop where
  told : ∀ s d, key d ∈ taken s →
    step s d = (s, ⟨.duplicateDefinition (key d), line d⟩ :: more d)
  entered : ∀ s d, key d ∉ taken s → taken (step s d).1 = taken s ++ [key d] ∧
    entries (step s d).1 = entries s ++ [(key d, value d)] ∧ (step s d).2 = more d

namespace Declaring

variable {σ δ α : Type} {step : σ → δ → σ × List Diagnostic} {taken : σ → List String}
  {entries : σ → List (String × α)} {key : δ → String} {value : δ → α} {line : δ → Line}
  {more : δ → List Diagnostic}

/-- After a step the item's name is taken, and no name but that one more. -/
lemma mem_taken_step (hs : Declaring step taken entries key value line more) (s : σ) (d : δ)
    (x : String) : x ∈ taken (step s d).1 ↔ x ∈ taken s ++ [key d] := by
  by_cases hd : key d ∈ taken s
  · rw [hs.told s d hd]
    by_cases hx : x = key d
    · simp [hx, hd]
    · simp [hx]
  · rw [(hs.entered s d hd).1]

lemma told_step (hs : Declaring step taken entries key value line more) (s : σ) (d : δ) :
    (step s d).2 = duplicate (taken s) (key d) (line d) ++ more d := by
  by_cases hd : key d ∈ taken s
  · rw [hs.told s d hd, duplicate, if_pos hd]
    rfl
  · rw [(hs.entered s d hd).2.2, duplicate, if_neg hd]
    rfl

/-- Told of each item is whether its name is taken, be it by an earlier item, and then what there is
to tell of the item itself. -/
theorem told_gather (hs : Declaring step taken entries key value line more) (ds : List δ) (s : σ) :
    (gather step s ds).2 = (withEarlier key ds).flatMap fun x =>
      duplicate (taken s ++ x.1) (key x.2) (line x.2) ++ more x.2 := by
  induction ds generalizing s with
  | nil => rfl
  | cons d ds ih =>
    have htail : (withEarlier key ds).flatMap (fun x =>
          duplicate (taken (step s d).1 ++ x.1) (key x.2) (line x.2) ++ more x.2) =
        (withEarlier key ds).flatMap fun x =>
          duplicate (taken s ++ key d :: x.1) (key x.2) (line x.2) ++ more x.2 := by
      apply List.flatMap_congr
      intro x _
      congr 1
      apply duplicate_congr
      intro y
      have hstep := hs.mem_taken_step s d y
      simp only [List.mem_append, List.mem_cons, List.not_mem_nil, or_false] at hstep ⊢
      rw [hstep, or_assoc]
    rw [gather, withEarlier_cons, List.flatMap_cons, List.flatMap_map, hs.told_step, ih, htail,
      List.append_nil]

/-- Entered are the first items of their names, in order. -/
theorem entries_gather (hs : Declaring step taken entries key value line more) (ds : List δ)
    (s : σ) : entries (gather step s ds).1 =
      entries s ++ (firsts (taken s) key ds).map fun d => (key d, value d) := by
  induction ds generalizing s with
  | nil => simp [gather, firsts_nil]
  | cons d ds ih =>
    rw [gather, ih, firsts_cons]
    by_cases hd : key d ∈ taken s
    · rw [hs.told s d hd, if_pos hd]
    · obtain ⟨htaken, hentries, _⟩ := hs.entered s d hd
      rw [htaken, hentries, if_neg hd, List.map_cons, List.append_assoc, List.singleton_append]

lemma told_gather_of_nodup (hs : Declaring step taken entries key value line more) (ds : List δ)
    {s : σ} (hnodup : (taken s ++ ds.map key).Nodup) : (gather step s ds).2 = ds.flatMap more := by
  rw [hs.told_gather, flatMap_duplicate_of_nodup hnodup line more]

/-- Nothing is told exactly if no name repeats and nothing is told of any item. -/
theorem gather_eq_nil_iff (hs : Declaring step taken entries key value line more) (ds : List δ)
    {s : σ} (hnodup : (taken s).Nodup) :
    (gather step s ds).2 = [] ↔ (taken s ++ ds.map key).Nodup ∧ ∀ d ∈ ds, more d = [] := by
  induction ds generalizing s with
  | nil => simp [gather, hnodup]
  | cons d ds ih =>
    rw [gather, List.append_eq_nil_iff]
    by_cases hd : key d ∈ taken s
    · have htold := hs.told s d hd
      have hdup : ¬ (taken s ++ (d :: ds).map key).Nodup := by
        intro hn
        exact (List.nodup_append.1 hn).2.2 _ hd _ (by simp) rfl
      exact iff_of_false (fun h => by simp [htold] at h) fun h => hdup h.1
    · obtain ⟨htaken, _, hmore⟩ := hs.entered s d hd
      have hnext : (taken (step s d).1).Nodup := by
        rw [htaken, List.nodup_append]
        refine ⟨hnodup, by simp, ?_⟩
        intro x hx y hy heq
        rw [List.mem_singleton.1 hy] at heq
        exact hd (heq ▸ hx)
      rw [ih hnext, htaken, hmore]
      simp only [List.map_cons, List.append_assoc, List.singleton_append, List.mem_cons,
        forall_eq_or_imp]
      tauto

/-- Without repeated names every item is entered, in order. -/
lemma entries_gather_of_nodup (hs : Declaring step taken entries key value line more)
    (ds : List δ) {s : σ} (hnodup : (taken s ++ ds.map key).Nodup) :
    entries (gather step s ds).1 = entries s ++ ds.map fun d => (key d, value d) := by
  rw [hs.entries_gather, firsts_of_nodup hnodup]

end Declaring

lemma declaring_declare {δ α : Type} (key : δ → String) (value : δ → α) (line : δ → Line)
    (more : δ → List Diagnostic) :
    Declaring (fun b d => ((Bindings.declare b (key d) (value d) (line d)).1,
      (Bindings.declare b (key d) (value d) (line d)).2 ++ more d))
      Bindings.names Bindings.entries key value line more where
  told b d hd := by simp [Bindings.declare_taken hd]
  entered b d hd := by
    obtain ⟨hentries, hnone⟩ := Bindings.declare_fresh hd (value d) (line d)
    simp [Bindings.names, hentries, hnone]

lemma declaring_declareVar :
    Declaring Bindings.declareVar Bindings.names Bindings.entries VarDecl.name VarDecl.ty
      VarDecl.line fun _ => [] := by
  have hstep := declaring_declare VarDecl.name VarDecl.ty VarDecl.line fun _ => []
  simp only [List.append_nil] at hstep
  exact hstep

lemma declaring_declareMethod :
    Declaring Bindings.declareMethod Bindings.names Bindings.entries MethodDecl.name
      (fun d => d.info.1) MethodDecl.line fun d => d.info.2 :=
  declaring_declare MethodDecl.name (fun d => d.info.1) MethodDecl.line fun d => d.info.2

/-- A local may be called neither like an earlier one nor like a parameter. -/
lemma declaring_declareLocal (params : Bindings Ty) :
    Declaring (Bindings.declareLocal params) (fun b => params.names ++ b.names) Bindings.entries
      VarDecl.name VarDecl.ty VarDecl.line fun _ => [] where
  told b d hd := by
    rw [Bindings.declareLocal]
    by_cases hp : params.contains d.name = true
    · rw [if_pos hp]
    · have hmem : d.name ∉ params.names := by simpa [Bindings.contains] using hp
      rw [if_neg hp]
      exact declaring_declareVar.told b d ((List.mem_append.1 hd).resolve_left hmem)
  entered b d hd := by
    rw [List.mem_append, not_or] at hd
    have hp : ¬ params.contains d.name = true := by simpa [Bindings.contains] using hd.1
    obtain ⟨hnames, hentries, hnone⟩ := declaring_declareVar.entered b d hd.2
    rw [Bindings.declareLocal, if_neg hp, hnames]
    exact ⟨(List.append_assoc _ _ _).symm, hentries, hnone⟩

lemma Hierarchy.declaring_declare {δ : Type} (key : δ → String) (value : δ → ClassInfo)
    (line : δ → Line) (more : δ → List Diagnostic) :
    Declaring (fun h d => ((Hierarchy.declare h (key d) (value d) (line d)).1,
      (Hierarchy.declare h (key d) (value d) (line d)).2 ++ more d))
      (fun h => h.own.names) (fun h => h.own.entries) key value line more where
  told h d hd := by simp [Hierarchy.declare, Bindings.declare_taken hd]
  entered h d hd := by
    obtain ⟨hentries, hnone⟩ := Bindings.declare_fresh hd (value d) (line d)
    simp [Hierarchy.declare, Bindings.names, hentries, hnone]

lemma declaring_declareClass :
    Declaring Hierarchy.declareClass (fun h => h.own.names) (fun h => h.own.entries)
      ClassDecl.name (fun d => d.info.1) ClassDecl.line fun d => d.info.2 :=
  Hierarchy.declaring_declare ClassDecl.name (fun d => d.info.1) ClassDecl.line fun d => d.info.2

namespace MethodDecl

variable {d : MethodDecl}

lemma distinctNames_iff :
    d.DistinctNames ↔ (d.formals.map VarDecl.name ++ d.locals.map VarDecl.name).Nodup := by
  rw [DistinctNames, vars, List.map_append]

lemma entries_params (hd : (d.formals.map VarDecl.name).Nodup) :
    d.info.1.params.entries = d.formals.map fun v => (v.name, v.ty) :=
  declaring_declareVar.entries_gather_of_nodup d.formals (s := .empty) hd

lemma names_params (hd : (d.formals.map VarDecl.name).Nodup) :
    d.info.1.params.names = d.formals.map VarDecl.name := by
  rw [Bindings.names, entries_params hd, List.map_map]
  rfl

lemma entries_locals (hd : d.DistinctNames) :
    d.info.1.locals.entries = d.locals.map fun v => (v.name, v.ty) := by
  rw [distinctNames_iff] at hd
  have hnames := names_params (List.nodup_append.1 hd).1
  refine (declaring_declareLocal d.info.1.params).entries_gather_of_nodup d.locals (s := .empty) ?_
  rw [hnames, Bindings.names_empty, List.append_nil]
  exact hd

theorem info_eq_nil_iff (d : MethodDecl) : d.info.2 = [] ↔ d.DistinctNames := by
  have hparams := declaring_declareVar.gather_eq_nil_iff d.formals (s := .empty) List.nodup_nil
  have hlocals := (declaring_declareLocal d.info.1.params).gather_eq_nil_iff d.locals
    (s := .empty) (by simpa using d.info.1.params.nodup_names)
  have hboth : d.info.2 = [] ↔ (gather Bindings.declareVar .empty d.formals).2 = [] ∧
      (gather (Bindings.declareLocal d.info.1.params) .empty d.locals).2 = [] :=
    List.append_eq_nil_iff
  rw [hboth, hparams, hlocals, distinctNames_iff]
  simp only [Bindings.names_empty, List.nil_append, List.append_nil, implies_true, and_true]
  constructor
  · rintro ⟨hformals, hall⟩
    rwa [names_params hformals] at hall
  · intro hall
    have hformals := (List.nodup_append.1 hall).1
    refine ⟨hformals, ?_⟩
    rwa [names_params hformals]

end MethodDecl

namespace ClassDecl

variable {d : ClassDecl}

lemma entries_fields (hd : (d.fields.map VarDecl.name).Nodup) :
    d.info.1.fields.entries = d.fields.map fun v => (v.name, v.ty) :=
  declaring_declareVar.entries_gather_of_nodup d.fields (s := .empty) hd

lemma entries_fields_firsts (d : ClassDecl) : d.info.1.fields.entries =
    (firsts [] VarDecl.name d.fields).map fun v => (v.name, v.ty) :=
  declaring_declareVar.entries_gather d.fields .empty

lemma entries_methods_firsts (d : ClassDecl) : d.info.1.methods.entries =
    (firsts [] MethodDecl.name d.methods).map fun m => (m.name, m.info.1) :=
  declaring_declareMethod.entries_gather d.methods .empty

lemma entries_methods (hd : (d.methods.map MethodDecl.name).Nodup) :
    d.info.1.methods.entries = d.methods.map fun m => (m.name, m.info.1) :=
  declaring_declareMethod.entries_gather_of_nodup d.methods (s := .empty) hd

theorem info_eq_nil_iff (d : ClassDecl) : d.info.2 = [] ↔ d.DistinctNames := by
  have hfields := declaring_declareVar.gather_eq_nil_iff d.fields (s := .empty) List.nodup_nil
  have hmethods := declaring_declareMethod.gather_eq_nil_iff d.methods (s := .empty) List.nodup_nil
  have hboth : d.info.2 = [] ↔ (gather Bindings.declareVar .empty d.fields).2 = [] ∧
      (gather Bindings.declareMethod .empty d.methods).2 = [] :=
    List.append_eq_nil_iff
  rw [hboth, hfields, hmethods]
  simp only [Bindings.names_empty, List.nil_append, implies_true, and_true,
    MethodDecl.info_eq_nil_iff]
  constructor
  · rintro ⟨hf, hm, hv⟩
    exact ⟨hf, hm, hv⟩
  · rintro ⟨hf, hm, hv⟩
    exact ⟨hf, hm, hv⟩

end ClassDecl

namespace Program

variable {p : Program}

/-- The hierarchy that the program declares. -/
def hierarchy (p : Program) : Hierarchy := (Hierarchy.collect .empty p).1

/-- Nothing is declared before the main class. -/
lemma declareMain_empty (m : MainClass) :
    Hierarchy.declareMain .empty m = (⟨⟨[(m.name, m.info)], by simp⟩, []⟩, []) := by
  have hfresh : m.name ∉ (Bindings.empty : Bindings ClassInfo).names := by simp
  obtain ⟨hentries, hnone⟩ := Bindings.declare_fresh hfresh m.info m.line
  have hown : (Bindings.declare .empty m.name m.info m.line).1 = ⟨[(m.name, m.info)], by simp⟩ :=
    Bindings.ext (by simpa using hentries)
  simp [Hierarchy.declareMain, Hierarchy.declare, Scope.empty, hown, hnone]

/-- Nothing is told of the main class, and its name is taken for all others. -/
theorem told_collect_classes (p : Program) : (Hierarchy.collect .empty p).2 =
    (withEarlier ClassDecl.name p.classes).flatMap fun x =>
      duplicate (p.main.name :: x.1) x.2.name x.2.line ++ x.2.info.2 := by
  have hmain := declareMain_empty p.main
  have hclasses := declaring_declareClass.told_gather p.classes
    (Hierarchy.declareMain .empty p.main).1
  have hboth : (Hierarchy.collect .empty p).2 = (Hierarchy.declareMain .empty p.main).2 ++
      (gather Hierarchy.declareClass (Hierarchy.declareMain .empty p.main).1 p.classes).2 := rfl
  rw [hboth, hclasses, hmain]
  rfl

lemma told_collect_of_nodup (hp : p.classNames.Nodup) :
    (Hierarchy.collect .empty p).2 = p.classes.flatMap fun c => c.info.2 := by
  have hnames : ([p.main.name] ++ p.classes.map ClassDecl.name).Nodup := hp
  rw [told_collect_classes]
  exact flatMap_duplicate_of_nodup hnames ClassDecl.line fun c => c.info.2

theorem collect_eq_nil_iff (p : Program) :
    (Hierarchy.collect .empty p).2 = [] ↔ p.DistinctNames := by
  have hmain := declareMain_empty p.main
  have hclasses := declaring_declareClass.gather_eq_nil_iff p.classes
    (s := (Hierarchy.declareMain .empty p.main).1) (by simp [hmain, Bindings.names])
  have hboth : (Hierarchy.collect .empty p).2 = [] ↔
      (Hierarchy.declareMain .empty p.main).2 = [] ∧
      (gather Hierarchy.declareClass (Hierarchy.declareMain .empty p.main).1 p.classes).2 = [] :=
    List.append_eq_nil_iff
  rw [hboth, hclasses, hmain]
  simp only [Bindings.names, List.map_cons, List.map_nil, List.singleton_append, true_and,
    ClassDecl.info_eq_nil_iff]
  constructor
  · rintro ⟨hn, hm⟩
    exact ⟨hn, hm⟩
  · rintro ⟨hn, hm⟩
    exact ⟨hn, hm⟩

lemma outer_collect (h : Hierarchy) (p : Program) : (h.collect p).1.outer = h.outer := by
  have hkeep : ∀ (ds : List ClassDecl) (h : Hierarchy),
      (gather Hierarchy.declareClass h ds).1.outer = h.outer := by
    intro ds
    induction ds with
    | nil => exact fun h => rfl
    | cons d ds ih => exact fun h => ih _
  exact hkeep p.classes _

lemma outer_hierarchy (p : Program) : p.hierarchy.outer = [] := outer_collect .empty p

lemma hierarchy_eq_of_entries {h : Hierarchy}
    (hentries : p.hierarchy.own.entries = h.own.entries) (houter : h.outer = []) :
    p.hierarchy = h := by
  calc p.hierarchy
      = ⟨p.hierarchy.own, p.hierarchy.outer⟩ := rfl
    _ = h := by rw [Bindings.ext hentries, outer_hierarchy, ← houter]

/-- The main class comes first, so no class takes its name; the hierarchy then holds the first class
of every other name. -/
theorem entries_hierarchy_firsts (p : Program) :
    p.hierarchy.own.entries = (p.main.name, p.main.info) ::
      (firsts [p.main.name] ClassDecl.name p.classes).map fun c => (c.name, c.info.1) := by
  have hgather := declaring_declareClass.entries_gather p.classes
    (Hierarchy.declareMain .empty p.main).1
  rw [hierarchy, Hierarchy.collect, hgather, declareMain_empty p.main]
  rfl

/-- With distinct names the hierarchy holds the declarations as they are written. -/
theorem entries_hierarchy (hp : p.classNames.Nodup) :
    p.hierarchy.own.entries =
      (p.main.name, p.main.info) :: p.classes.map fun c => (c.name, c.info.1) := by
  rw [entries_hierarchy_firsts, firsts_of_nodup hp]

end Program

end MiniJava
