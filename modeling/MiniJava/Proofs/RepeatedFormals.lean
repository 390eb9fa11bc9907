import MiniJava.Proofs.Arity
import MiniJava.Proofs.FirstWins

/-!
# A formal with the name of an earlier one

One formal of an accepted program is given the name of an earlier formal of the same method, and
nothing in the method mentions it. The repetition is told once. From then on the method counts as
one without that formal: it takes one argument fewer. So nothing else is told exactly if nobody
calls the method and no related class has a method of that name.
-/

namespace MiniJava

/-- Two formals of a method, the first of them somewhere in front of the second. -/
structure FormalPair (m : MethodDecl) where
  front : List VarDecl
  second : VarDecl
  after : List VarDecl
  formals_eq : m.formals = front ++ second :: after
  first : VarDecl
  first_mem : first ∈ front

namespace FormalPair

variable {m : MethodDecl} (pair : FormalPair m)

/-- The second formal is called like the first. -/
def repeated : MethodDecl :=
  { m with formals := pair.front ++ { pair.second with name := pair.first.name } :: pair.after }

/-- The second formal is left out. -/
def shortened : MethodDecl := { m with formals := pair.front ++ pair.after }

lemma first_name_mem : pair.first.name ∈ pair.front.map VarDecl.name :=
  List.mem_map_of_mem pair.first_mem

lemma mem_names_repeated (x : String) :
    x ∈ pair.repeated.formals.map VarDecl.name ↔ x ∈ pair.shortened.formals.map VarDecl.name := by
  have hmem := pair.first_name_mem
  simp only [repeated, shortened, List.map_append, List.map_cons, List.mem_append, List.mem_cons]
  constructor
  · rintro (hx | rfl | hx)
    · exact .inl hx
    · exact .inl hmem
    · exact .inr hx
  · rintro (hx | hx)
    · exact .inl hx
    · exact .inr (.inr hx)

lemma formals_shortened_sublist : pair.shortened.formals.Sublist m.formals := by
  rw [pair.formals_eq]
  exact (List.Sublist.refl _).append (List.sublist_cons_self _ _)

lemma vars_shortened_sublist : pair.shortened.vars.Sublist m.vars :=
  pair.formals_shortened_sublist.append (List.Sublist.refl _)

lemma distinctNames_shortened (hm : m.DistinctNames) : pair.shortened.DistinctNames :=
  hm.sublist (pair.vars_shortened_sublist.map VarDecl.name)

/-- Leaving out a formal that is not mentioned changes nothing but the number of arguments. -/
lemma resized (hunused : ∀ line, Mention.ofVar pair.second.name line ∉ m.mentions) :
    m.Resized pair.shortened where
  name := rfl
  returnType := rfl
  body := rfl
  result := rfl
  arity := by
    rw [pair.formals_eq, shortened, List.length_append, List.length_append, List.length_cons]
    omega
  vars x line hx t := by
    constructor
    · rintro ⟨v, hv, hvx⟩
      exact ⟨v, pair.vars_shortened_sublist.mem hv, hvx⟩
    · rintro ⟨v, hv, rfl, rfl⟩
      rw [MethodDecl.vars, pair.formals_eq] at hv
      have hne : v ≠ pair.second := by
        rintro rfl
        exact hunused line hx
      refine ⟨v, ?_, rfl, rfl⟩
      rw [MethodDecl.vars]
      simpa [shortened, hne] using hv

/-! ### What the collection makes of it -/

/-- Of both methods the same is known. -/
lemma info_repeated : pair.repeated.info.1 = pair.shortened.info.1 := by
  have hfirsts : firsts [] VarDecl.name pair.repeated.formals =
      firsts [] VarDecl.name pair.shortened.formals := by
    rw [repeated, shortened, firsts_append, firsts_append, firsts_cons, List.nil_append,
      if_pos pair.first_name_mem]
  have hparams : pair.repeated.info.1.params = pair.shortened.info.1.params := by
    apply Bindings.ext
    rw [MethodDecl.params_entries, MethodDecl.params_entries, hfirsts]
  have hlocals : pair.repeated.info.1.locals = pair.shortened.info.1.locals := by
    apply Bindings.ext
    rw [MethodDecl.locals_entries, MethodDecl.locals_entries, firsts_congr pair.mem_names_repeated]
    rfl
  calc pair.repeated.info.1
      = { pair.shortened.info.1 with
          params := pair.repeated.info.1.params, locals := pair.repeated.info.1.locals } := rfl
    _ = pair.shortened.info.1 := by rw [hparams, hlocals]

end FormalPair

namespace VarDecl

lemma repeats_append (taken : List String) (ds es : List VarDecl) :
    repeats taken (ds ++ es) = repeats taken ds ++ repeats (taken ++ ds.map VarDecl.name) es := by
  simp only [repeats, withEarlier_append, List.flatMap_append, List.flatMap_map, List.append_assoc]

lemma repeats_cons (taken : List String) (d : VarDecl) (ds : List VarDecl) :
    repeats taken (d :: ds) = duplicate taken d.name d.line ++ repeats (taken ++ [d.name]) ds := by
  simp only [repeats, withEarlier_cons, List.flatMap_cons, List.flatMap_map, List.append_nil,
    List.append_assoc, List.singleton_append]

lemma repeats_congr {s t : List String} (hst : ∀ x, x ∈ s ↔ x ∈ t) (ds : List VarDecl) :
    repeats s ds = repeats t ds := by
  apply List.flatMap_congr
  intro x _
  apply duplicate_congr
  intro y
  rw [List.mem_append, List.mem_append, hst]

lemma repeats_of_nodup {taken : List String} {ds : List VarDecl}
    (hnodup : (taken ++ ds.map VarDecl.name).Nodup) : repeats taken ds = [] := by
  have htold := flatMap_duplicate_of_nodup hnodup VarDecl.line fun _ => []
  simp only [List.append_nil] at htold
  rw [repeats, htold]
  exact List.flatMap_eq_nil_iff.2 fun _ _ => rfl

end VarDecl

namespace FormalPair

variable {m : MethodDecl} (pair : FormalPair m)

/-- The repetition is told, and nothing else is repeated. -/
lemma told_repeated (hm : m.DistinctNames) : pair.repeated.info.2 =
    [⟨.duplicateDefinition pair.first.name, pair.second.line⟩] := by
  have hnames := MethodDecl.distinctNames_iff.1 (pair.distinctNames_shortened hm)
  obtain ⟨hformals, _, _⟩ := List.nodup_append.1 hnames
  have hfront : (pair.front.map VarDecl.name ++ pair.after.map VarDecl.name).Nodup := by
    rw [← List.map_append]
    exact hformals
  have htold : VarDecl.repeats [] pair.repeated.formals =
      [⟨.duplicateDefinition pair.first.name, pair.second.line⟩] := by
    have hafter : VarDecl.repeats (pair.front.map VarDecl.name ++ [pair.first.name]) pair.after =
        [] := by
      rw [VarDecl.repeats_congr (t := pair.front.map VarDecl.name), VarDecl.repeats_of_nodup hfront]
      intro x
      have hmem := pair.first_name_mem
      simp only [List.mem_append, List.mem_singleton]
      exact ⟨fun hx => hx.elim id fun heq => heq ▸ hmem, .inl⟩
    rw [repeated, VarDecl.repeats_append, VarDecl.repeats_cons, List.nil_append, hafter,
      VarDecl.repeats_of_nodup (List.nodup_append.1 hfront).1, duplicate,
      if_pos pair.first_name_mem]
    rfl
  have hlocals : VarDecl.repeats (pair.repeated.formals.map VarDecl.name) pair.repeated.locals =
      [] := by
    rw [VarDecl.repeats_congr pair.mem_names_repeated]
    exact VarDecl.repeats_of_nodup hnames
  rw [MethodDecl.info_told, MethodDecl.repeats, htold, hlocals, List.append_nil]

/-- Where its type is declared, nothing is found through the second formal. -/
lemma findings_repeated {h : Hierarchy} (hsecond : pair.second.undeclared h = []) (ctx : Context) :
    pair.repeated.findings h ctx = pair.shortened.findings h ctx := by
  have htypes : ∀ i, pair.repeated.checkTypes h i = pair.shortened.checkTypes h i := by
    intro i
    -- the type of a variable is looked up whatever the variable is called
    have hsame : VarDecl.undeclared h { pair.second with name := pair.first.name } = [] := hsecond
    simp only [MethodDecl.checkTypes, repeated, shortened, List.flatMap_append, List.flatMap_cons,
      hsame, List.nil_append]
  have hlive : pair.repeated.live? ctx.owner = pair.shortened.live? ctx.owner := rfl
  rw [MethodDecl.findings, MethodDecl.findings, hlive]
  cases pair.shortened.live? ctx.owner with
  | none => rfl
  | some i =>
    simp only [htypes]
    rfl

end FormalPair

/-! ### In its place -/

namespace MethodPlace

variable {p : Program} {place : MethodPlace p} {m n : MethodDecl}

lemma methodNames_ownerReplacing (hname : m.name = place.method.name) :
    (place.ownerReplacing m).methods.map MethodDecl.name =
      place.owner.methods.map MethodDecl.name := by
  simp only [ownerReplacing, place.methods_eq, List.map_append, List.map_cons, hname]

/-- All that the collection tells is of the new method. -/
lemma told_replace (hp : p.DistinctNames) (hname : m.name = place.method.name) :
    (Hierarchy.collect .empty (place.replace m)).2 = m.info.2 := by
  have hothers : ∀ c ∈ place.before ++ place.after, c.info.2 = [] := fun c hc =>
    (ClassDecl.info_eq_nil_iff c).2 (hp.members c (place.classPlace.mem_of_mem_others hc))
  obtain ⟨hfields, hmethods, hvars⟩ := hp.members _ place.owner_mem
  rw [← methodNames_ownerReplacing hname] at hmethods
  have hmore : ∀ i ∈ place.earlier ++ place.later, i.info.2 = [] := fun i hi =>
    (MethodDecl.info_eq_nil_iff i).2 (hvars i ((mem_others_iff hp i).1 hi).1)
  rw [List.forall_mem_append] at hothers hmore
  have howner : (place.ownerReplacing m).info.2 = m.info.2 := by
    calc (place.ownerReplacing m).info.2
        = (gather Bindings.declareVar .empty place.owner.fields).2 ++
            (gather Bindings.declareMethod .empty (place.ownerReplacing m).methods).2 := rfl
      _ = (place.ownerReplacing m).methods.flatMap fun i => i.info.2 := by
          rw [VarDecl.told_declareVar, VarDecl.repeats_of_nodup hfields, List.nil_append,
            declaring_declareMethod.told_gather_of_nodup _ (s := .empty) hmethods]
      _ = m.info.2 := by
          rw [ownerReplacing, List.flatMap_append, List.flatMap_cons,
            List.flatMap_eq_nil_iff.2 hmore.1, List.flatMap_eq_nil_iff.2 hmore.2, List.append_nil,
            List.nil_append]
  have hnames : (place.replace m).classNames.Nodup := by
    rw [place.classNames_replace]
    exact hp.classes
  rw [Program.told_collect_of_nodup hnames, replace, classPlace, ClassPlace.replace,
    List.flatMap_append, List.flatMap_cons, howner, List.flatMap_eq_nil_iff.2 hothers.1,
    List.flatMap_eq_nil_iff.2 hothers.2, List.append_nil, List.nil_append]

/-- Two methods of which the same is known make the same hierarchy. -/
lemma hierarchy_replace (hp : p.DistinctNames) (hm : m.name = place.method.name)
    (hn : n.name = place.method.name) (hinfo : m.info.1 = n.info.1) :
    (place.replace m).hierarchy = (place.replace n).hierarchy := by
  have hnames := (hp.members _ place.owner_mem).methods
  have hmethods : (place.ownerReplacing m).info.1.methods =
      (place.ownerReplacing n).info.1.methods := by
    apply Bindings.ext
    rw [ClassDecl.entries_methods (methodNames_ownerReplacing hm ▸ hnames),
      ClassDecl.entries_methods (methodNames_ownerReplacing hn ▸ hnames)]
    simp only [ownerReplacing, List.map_append, List.map_cons, hm, hn, hinfo]
  have howner : (place.ownerReplacing m).info.1 = (place.ownerReplacing n).info.1 := by
    calc (place.ownerReplacing m).info.1
        = { (place.ownerReplacing n).info.1 with
            methods := (place.ownerReplacing m).info.1.methods } := rfl
      _ = (place.ownerReplacing n).info.1 := by rw [hmethods]
  have hclasses : ∀ i, (place.replace i).classNames.Nodup := by
    intro i
    rw [place.classNames_replace]
    exact hp.classes
  apply Program.hierarchy_eq_of_entries _ (Program.outer_hierarchy _)
  rw [Program.entries_hierarchy (hclasses m), Program.entries_hierarchy (hclasses n)]
  simp only [replace, classPlace, ClassPlace.replace, List.map_append, List.map_cons, howner]
  rfl

/-- Two methods in which the same is found make no difference to what is found in the code. -/
lemma freshFindings_replace {h : Hierarchy}
    (hfindings : ∀ ctx, m.findings h ctx = n.findings h ctx) :
    (place.replace m).classes.flatMap (·.freshFindings h) =
      (place.replace n).classes.flatMap (·.freshFindings h) := by
  have howner : (place.ownerReplacing m).freshFindings h =
      (place.ownerReplacing n).freshFindings h := by
    have hlive : (place.ownerReplacing m).live? h = (place.ownerReplacing n).live? h := rfl
    rw [ClassDecl.freshFindings, ClassDecl.freshFindings, hlive]
    cases (place.ownerReplacing n).live? h with
    | none => rfl
    | some owner =>
      simp only [ClassDecl.findings, ownerReplacing, List.flatMap_append, List.flatMap_cons,
        hfindings]
      rfl
  simp only [replace, ClassPlace.replace, List.flatMap_append, List.flatMap_cons, howner]

end MethodPlace

namespace Program

/-- The repeated name is told first. The rest is found as if the formal were not there. -/
theorem findings_replace_repeated {p : Program} (hp : p.WellTyped) (place : MethodPlace p)
    (pair : FormalPair place.method) :
    (place.replace pair.repeated).findings =
      ⟨.duplicateDefinition pair.first.name, pair.second.line⟩ ::
        (place.replace pair.shortened).findings := by
  have hvars := (hp.distinct.members _ place.owner_mem).methodVars _ place.method_mem
  have hshort := pair.distinctNames_shortened hvars
  have hhierarchy : (place.replace pair.repeated).hierarchy =
      (place.replace pair.shortened).hierarchy :=
    place.hierarchy_replace hp.distinct rfl rfl pair.info_repeated
  have hsecond : pair.second.undeclared (place.replace pair.shortened).hierarchy = [] := by
    have hmem : pair.second ∈ place.method.vars :=
      List.mem_append_left _ (by simp [pair.formals_eq])
    have hdecl := hp.var_declared _ place.owner_mem _ place.method_mem _ hmem
    have hr : (place.replace pair.shortened).Regular := place.regular_replace hp.regular rfl hshort
    rw [← declared_iff_of_classNames (place.classNames_replace pair.shortened)] at hdecl
    exact (undeclared_eq_nil_iff _ _).2 hdecl
  have hrepeated := place.told_replace (m := pair.repeated) hp.distinct rfl
  rw [pair.told_repeated hvars] at hrepeated
  have hshortened := place.told_replace (m := pair.shortened) hp.distinct rfl
  rw [(MethodDecl.info_eq_nil_iff _).2 hshort] at hshortened
  rw [findings, findings, hrepeated, hshortened, hhierarchy,
    place.freshFindings_replace (pair.findings_repeated hsecond)]
  rfl

/-- Call a formal of an accepted program like an earlier formal of its method, if nothing mentions
it. The repetition is told, and then what is told without the formal. That is nothing exactly if the
method is never called and no related class declares it too. -/
theorem repeated_formal_told_first {p : Program} {checked : Checked} (hok : p.check = .ok checked)
    (place : MethodPlace p) (pair : FormalPair place.method)
    (hunused : ∀ line, Mention.ofVar pair.second.name line ∉ place.method.mentions) :
    ∃ rest, (place.replace pair.shortened).Reports rest ∧
      (place.replace pair.repeated).check = .error (.findings
        (⟨.duplicateDefinition pair.first.name, pair.second.line⟩ :: rest)) ∧
      (rest = [] ↔ place.Sole ∧ place.Uncalled) := by
  have hp := (clean_iff_wellTyped p).1 ((check_eq_ok_iff p checked).1 hok).1
  have hvars := (hp.distinct.members _ place.owner_mem).methodVars _ place.method_mem
  have hdecl : ∀ v ∈ pair.shortened.vars, p.Declared v.ty := fun v hv =>
    hp.var_declared _ place.owner_mem _ place.method_mem v (pair.vars_shortened_sublist.mem hv)
  refine ⟨(place.replace pair.shortened).findings, check_eq_findings _, ?_, ?_⟩
  · rw [check_eq_findings, findings_replace_repeated hp place pair]
    rfl
  · rw [findings_eq_nil_iff, clean_iff_wellTyped]
    exact MethodPlace.wellTyped_replace_iff hp (pair.resized hunused)
      (pair.distinctNames_shortened hvars) hdecl

/-- `A` has a method of two arguments, and it is called. -/
def chooser : Program where
  main := ⟨"Main", "args", .print (.call (.newObject "A" none) "m" [.intLiteral 1 none,
    .intLiteral 2 none] (some 1)) none, none⟩
  classes :=
    [⟨1, "A", none, [], [⟨2, ⟨.int, none⟩, "m",
      [⟨⟨.int, none⟩, "x", some 2⟩, ⟨⟨.int, none⟩, "y", some 3⟩], [], [], .identifier "x" none,
      none⟩], none⟩]
  line := none

def chooserMethod : MethodPlace chooser := ⟨[], _, [], rfl, [], _, [], rfl⟩

def chooserPair : FormalPair chooserMethod.method := ⟨[_], _, [], rfl, _, List.mem_singleton_self _⟩

/-- With `x` for both formals the call has one argument too many, and that is told as well. -/
theorem repeated_formal_told_first_chooser :
    chooser.check = .ok ⟨chooser, chooser.hierarchy⟩ ∧
      (∀ line, Mention.ofVar "y" line ∉ chooserMethod.method.mentions) ∧
      chooserMethod.Sole ∧ ¬ chooserMethod.Uncalled ∧
      (chooserMethod.replace chooserPair.shortened).Reports [⟨.arityMismatch "m" 1 2, some 1⟩] ∧
      (chooserMethod.replace chooserPair.repeated).check = .error (.findings
        [⟨.duplicateDefinition "x", some 3⟩, ⟨.arityMismatch "m" 1 2, some 1⟩]) := by
  have hok : chooser.check = .ok ⟨chooser, chooser.hierarchy⟩ := by rfl
  have hmentions : chooserMethod.method.mentions = [.ofVar "x" none] := by decide
  have hunused : ∀ line, Mention.ofVar "y" line ∉ chooserMethod.method.mentions := by
    simp [hmentions]
  obtain ⟨rest, hreports, hcheck, _⟩ :=
    repeated_formal_told_first hok chooserMethod chooserPair hunused
  have hfound : (chooserMethod.replace chooserPair.repeated).check = .error (.findings
      [⟨.duplicateDefinition "x", some 3⟩, ⟨.arityMismatch "m" 1 2, some 1⟩]) := by rfl
  have hrest : rest = [⟨.arityMismatch "m" 1 2, some 1⟩] := by
    rw [hfound] at hcheck
    injection hcheck with hcheck
    injection hcheck with hcheck
    exact (List.cons.inj hcheck).2.symm
  exact ⟨hok, hunused, by decide, by decide, hrest ▸ hreports, hfound⟩

end Program

end MiniJava
