import MiniJava.Proofs.Answers
import MiniJava.Proofs.FirstWins
import MiniJava.Proofs.Live

/-!
# One more class

A program gets a class whose name it does not speak of. No walk up the superclasses of the old
classes comes to the new one, no method or variable of theirs has its type, and so neither has any
expression: the old code is checked as before, and all that is new is what is wrong with the new
class itself. The new class may extend, use and override whatever it likes.
-/

namespace MiniJava

variable {On : String → Prop}

lemma Bindings.mem_values_of_get? {α : Type} {b : Bindings α} {name : String} {value : α}
    (hget : b.get? name = some value) : value ∈ b.values :=
  List.mem_map_of_mem (f := Prod.snd) ((b.get?_eq_some_iff name value).1 hget)

/-! ### Tables that speak of some classes only -/

structure MethodInfo.Among (On : String → Prop) (i : MethodInfo) : Prop where
  result : i.returnType.Among On
  params : ∀ t ∈ i.params.values, t.Among On
  locals : ∀ t ∈ i.locals.values, t.Among On

structure ClassInfo.Among (On : String → Prop) (c : ClassInfo) : Prop where
  name : On c.name
  superName : ∀ s, c.superName = some s → On s
  fields : ∀ t ∈ c.fields.values, t.Among On
  methods : ∀ i ∈ c.methods.values, i.Among On

lemma VarDecl.among_of_mentions {vs : List VarDecl}
    (hvs : ∀ m ∈ vs.flatMap VarDecl.mentions, m.Among On) {v : VarDecl} (hv : v ∈ vs) :
    v.ty.Among On :=
  TypeName.among_of_mentions fun m hm => hvs m (List.mem_flatMap.2 ⟨v, hv, hm⟩)

lemma MethodDecl.among_info {d : MethodDecl} (hd : ∀ m ∈ d.mentions, m.Among On) :
    d.info.1.Among On := by
  simp only [mentions, List.forall_mem_append] at hd
  obtain ⟨⟨⟨hresult, hvars⟩, _⟩, _⟩ := hd
  refine ⟨TypeName.among_of_mentions hresult, ?_, ?_⟩
  · intro t ht
    rw [Bindings.values, params_entries, List.map_map] at ht
    obtain ⟨v, hv, rfl⟩ := List.mem_map.1 ht
    exact VarDecl.among_of_mentions hvars (List.mem_append_left _ (mem_of_mem_firsts hv))
  · intro t ht
    rw [Bindings.values, locals_entries, List.map_map] at ht
    obtain ⟨v, hv, rfl⟩ := List.mem_map.1 ht
    exact VarDecl.among_of_mentions hvars (List.mem_append_right _ (mem_of_mem_firsts hv))

/-- The text of a class speaks of no class but those in `On`. -/
structure ClassDecl.Among (On : String → Prop) (c : ClassDecl) : Prop where
  name : On c.name
  heads : ∀ m ∈ c.mentions, m.Among On
  methods : ∀ d ∈ c.methods, ∀ m ∈ d.mentions, m.Among On

namespace ClassDecl.Among

variable {c : ClassDecl}

lemma superName (hc : c.Among On) {s : String} (hs : c.superName = some s) : On s := by
  have hmem : Mention.ofClass s c.line ∈ c.mentions := by simp [mentions, hs]
  exact hc.heads _ hmem

lemma field (hc : c.Among On) {v : VarDecl} (hv : v ∈ c.fields) : v.ty.Among On :=
  VarDecl.among_of_mentions (fun m hm => hc.heads m (List.mem_append_right _ hm)) hv

lemma info (hc : c.Among On) : c.info.1.Among On := by
  refine ⟨hc.name, fun s hs => hc.superName hs, ?_, ?_⟩
  · intro t ht
    rw [Bindings.values, entries_fields_firsts, List.map_map] at ht
    obtain ⟨v, hv, rfl⟩ := List.mem_map.1 ht
    exact hc.field (mem_of_mem_firsts hv)
  · intro i hi
    rw [Bindings.values, entries_methods_firsts, List.map_map] at hi
    obtain ⟨d, hd, rfl⟩ := List.mem_map.1 hi
    exact MethodDecl.among_info (hc.methods d (mem_of_mem_firsts hd))

end ClassDecl.Among

lemma MainClass.among_info {m : MainClass} (hm : On m.name) : m.info.Among On where
  name := hm
  superName s hs := by cases hs
  fields t ht := by cases ht
  methods i hi := by
    obtain rfl := List.mem_singleton.1 hi
    refine ⟨trivial, fun t ht => ?_, fun t ht => ?_⟩
    · obtain rfl := List.mem_singleton.1 ht
      trivial
    · cases ht

/-! ### A hierarchy with one class more -/

/-- `k` is `h` with one class more, and no class of `h` speaks of it. -/
structure Hierarchy.ExtendedBy (new : String) (h k : Hierarchy) : Prop where
  get? : ∀ name, name ≠ new → k.get? name = h.get? name
  among : ∀ name c, h.get? name = some c → c.Among (· ≠ new)

namespace Hierarchy.ExtendedBy

variable {new : String} {h k : Hierarchy} {c : ClassInfo}

/-- A class that does not speak of the new one, on both sides. -/
def Old (new : String) (c d : ClassInfo) : Prop := c = d ∧ c.Among (· ≠ new)

lemma rel_get? (hhk : h.ExtendedBy new k) {name : String} (hname : name ≠ new) :
    Option.Rel (Old new) (h.get? name) (k.get? name) := by
  rw [hhk.get? name hname]
  cases hc : h.get? name with
  | none => exact .none
  | some c => exact .some ⟨rfl, hhk.among name c hc⟩

lemma parallel (hhk : h.ExtendedBy new k) : Parallel (Old new) h k where
  name c d hcd := congrArg ClassInfo.name hcd.1
  superclass? c d hcd := by
    obtain ⟨rfl, hc⟩ := hcd
    rw [superclass?, superclass?]
    cases hs : c.superName with
    | none => exact .none
    | some s => exact hhk.rel_get? (hc.superName s hs)

lemma ancestors (hhk : h.ExtendedBy new k) (hc : c.Among (· ≠ new)) :
    k.ancestors c = h.ancestors c ∧ ∀ o ∈ c :: h.ancestors c, o.Among (· ≠ new) := by
  have hall : ∀ l l', List.Forall₂ (Old new) l l' → l' = l ∧ ∀ o ∈ l, o.Among (· ≠ new) := by
    intro l l' hl
    induction hl with
    | nil => simp
    | cons hcd _ ih =>
      obtain ⟨rfl, hc⟩ := hcd
      exact ⟨by rw [ih.1], List.forall_mem_cons.2 ⟨hc, ih.2⟩⟩
  obtain ⟨heq, habove⟩ := hall _ _ (hhk.parallel.ancestors ⟨rfl, hc⟩)
  exact ⟨heq, List.forall_mem_cons.2 ⟨hc, habove⟩⟩

lemma among_findMethod? (hhk : h.ExtendedBy new k) {a m : String} {i : MethodInfo}
    (hi : h.findMethod? a m = some i) : i.Among (· ≠ new) := by
  rw [findMethod?_eq] at hi
  obtain ⟨c, hc, hfound⟩ := Option.bind_eq_some_iff.1 hi
  obtain ⟨o, ho, hoi⟩ := List.exists_of_findSome?_eq_some hfound
  have hold := (hhk.ancestors (hhk.among a c hc)).2 o ho
  exact hold.methods i (Bindings.mem_values_of_get? hoi)

/-- The old classes answer as before. -/
lemma alikeOn (hhk : h.ExtendedBy new k) : h.AlikeOn (· ≠ new) k where
  known c hc := by rw [hhk.get? c hc]
  derivesFrom a b ha _ := hhk.parallel.derivesFrom (hhk.rel_get? ha) b
  findMethod? c m hc := by
    refine hhk.parallel.findMethod? (hhk.rel_get? hc) fun c d hcd => ?_
    rw [hcd.1]
  result c m i _ hi := (hhk.among_findMethod? hi).result
  params c m i _ hi := (hhk.among_findMethod? hi).params

lemma alikeOn_inClass (hhk : h.ExtendedBy new k) (hc : c.Among (· ≠ new)) :
    (Context.inClass h ⟨c, .empty⟩).AlikeOn (· ≠ new) (Context.inClass k ⟨c, .empty⟩) where
  owner := rfl
  inside := hc.name
  resolve x := by
    rw [Program.resolve_inClass, Program.resolve_inClass, (hhk.ancestors hc).1]
  types x t ht := by
    rw [Program.resolve_inClass] at ht
    obtain ⟨o, ho, hot⟩ := List.exists_of_findSome?_eq_some ht
    exact ((hhk.ancestors hc).2 o ho).fields t (Bindings.mem_values_of_get? hot)

end Hierarchy.ExtendedBy

lemma Context.AlikeOn.enter {ctx dtx : Context} (hctx : ctx.AlikeOn On dtx) {i : MethodInfo}
    (hi : i.Among On) : (ctx.enter i.scope).AlikeOn On (dtx.enter i.scope) where
  owner := hctx.owner
  inside := hctx.inside
  resolve x := by
    simp only [Context.enter, Env.resolve_enter, hctx.resolve]
  types x t ht := by
    rw [Context.enter, Env.resolve_enter, Option.or_eq_some_iff, MethodInfo.get?_scope,
      Option.or_eq_some_iff] at ht
    rcases ht with (hlocal | ⟨_, hparam⟩) | ⟨_, houter⟩
    · exact hi.locals t (Bindings.mem_values_of_get? hlocal)
    · exact hi.params t (Bindings.mem_values_of_get? hparam)
    · exact hctx.types x t houter

/-! ### The old code -/

section OldCode

variable {new : String} {h k : Hierarchy} (hhk : h.ExtendedBy new k)
include hhk

lemma MethodDecl.findings_extendedBy {d : MethodDecl} (hd : ∀ m ∈ d.mentions, m.Among (· ≠ new))
    {owner : ClassInfo} (howner : owner.Among (· ≠ new)) :
    d.findings k (Context.inClass k ⟨owner, .empty⟩) =
      d.findings h (Context.inClass h ⟨owner, .empty⟩) := by
  have hlive : ∀ h : Hierarchy, d.live? (Context.inClass h ⟨owner, .empty⟩).owner =
      d.live? owner := fun _ => rfl
  rw [findings, findings, hlive, hlive]
  cases hi : d.live? owner with
  | none => rfl
  | some i =>
    have hget := (Option.filter_eq_some_iff.1 hi).1
    have hamong := howner.methods i (Bindings.mem_values_of_get? hget)
    have hctx := (hhk.alikeOn_inClass howner).enter hamong
    obtain ⟨htypes, hbody⟩ := hhk.alikeOn.checkMethod hctx hd hamong.result
    simp only [htypes, hbody]

lemma ClassDecl.findings_extendedBy {c : ClassDecl} (hc : c.Among (· ≠ new)) {owner : ClassInfo}
    (howner : owner.Among (· ≠ new)) :
    c.findings k ⟨owner, .empty⟩ = c.findings h ⟨owner, .empty⟩ := by
  have hsuper : c.checkSuper k owner = c.checkSuper h owner := by
    unfold checkSuper
    cases hs : c.superName with
    | none => rfl
    | some s =>
      have hcycle := hhk.parallel.onCycle (c := owner) (d := owner) ⟨rfl, howner⟩
      simp only [hhk.get? s (hc.superName hs), hcycle]
  have hfields : c.fields.flatMap (·.undeclared k) = c.fields.flatMap (·.undeclared h) :=
    List.flatMap_congr fun v hv => (hhk.alikeOn.undeclared (hc.field hv) v.line).symm
  have hmethods : c.methods.flatMap (·.findings k (Context.inClass k ⟨owner, .empty⟩)) =
      c.methods.flatMap (·.findings h (Context.inClass h ⟨owner, .empty⟩)) :=
    List.flatMap_congr fun d hd => d.findings_extendedBy hhk (hc.methods d hd) howner
  rw [findings, findings, hsuper, hfields, hmethods, (hhk.ancestors howner).1]

lemma ClassDecl.freshFindings_extendedBy {c : ClassDecl} (hc : c.Among (· ≠ new)) :
    c.freshFindings k = c.freshFindings h := by
  have hlive : c.live? k = c.live? h := by rw [live?, live?, hhk.get? c.name hc.name]
  rw [freshFindings, freshFindings, hlive]
  cases ho : c.live? h with
  | none => rfl
  | some owner =>
    have hget := (Option.filter_eq_some_iff.1 ho).1
    exact c.findings_extendedBy hhk hc (hhk.among _ _ hget)

end OldCode

/-! ### Whole programs -/

/-- The answer of a check is what the two passes find. -/
lemma Trail.Finds.reports {p : Program} {ds : List Diagnostic}
    (hds : (p.checkAgainst p.hierarchy).Finds () ds) :
    p.Reports ((Hierarchy.collect .empty p).2 ++ ds) := by
  have hown := (Program.checkAgainst_finds p.context?_mainClass).diagnostics
  rw [← hds.diagnostics, hown]
  exact Program.check_eq_findings p

namespace Program

variable {p : Program} {d : ClassDecl}

/-- The program with one more class, behind the first `n`. -/
def insertClass (p : Program) (n : Nat) (d : ClassDecl) : Program :=
  { p with classes := p.classes.take n ++ d :: p.classes.drop n }

/-- The program with its first `n` classes only. -/
def takeClasses (p : Program) (n : Nat) : Program := { p with classes := p.classes.take n }

/-- No class has the name and nothing in the program mentions it. -/
structure SilentOn (p : Program) (name : String) : Prop where
  fresh : name ∉ p.classNames
  unmentioned : ∀ line, Mention.ofClass name line ∉ p.mentions

namespace SilentOn

variable {name : String}

lemma mention_among (hp : p.SilentOn name) {m : Mention} (hm : m ∈ p.mentions) :
    m.Among (· ≠ name) := by
  cases m with
  | ofVar x line => trivial
  | ofClass c line =>
    rintro rfl
    exact hp.unmentioned line hm

lemma class_among (hp : p.SilentOn name) {c : ClassDecl} (hc : c ∈ p.classes) :
    c.Among (· ≠ name) := by
  have hclass : ∀ m ∈ c.mentions ++ c.methods.flatMap MethodDecl.mentions, m.Among (· ≠ name) :=
    fun m hm => hp.mention_among
      (List.mem_append_right _ (List.mem_flatMap.2 ⟨c, hc, hm⟩))
  rw [List.forall_mem_append] at hclass
  refine ⟨?_, hclass.1, fun d hd m hm => hclass.2 m (List.mem_flatMap.2 ⟨d, hd, hm⟩)⟩
  intro heq
  exact hp.fresh (heq ▸ List.mem_cons_of_mem _ (List.mem_map_of_mem hc))

lemma name_not_mem_drop (hp : p.SilentOn name) (n : Nat) :
    name ∉ (p.classes.drop n).map ClassDecl.name := by
  intro hmem
  obtain ⟨c, hc, hcname⟩ := List.mem_map.1 hmem
  exact (hp.class_among (List.mem_of_mem_drop hc)).name hcname

lemma liveClasses_insertClass (hp : p.SilentOn d.name) (n : Nat) :
    ∃ ahead behind, p.liveClasses = ahead ++ behind ∧
      (p.insertClass n d).liveClasses = ahead ++ d :: behind := by
  have hfresh : d.name ∉ [p.main.name] ++ (p.classes.take n).map ClassDecl.name := by
    intro hmem
    apply hp.fresh
    rcases List.mem_cons.1 hmem with heq | hmem
    · exact heq ▸ List.mem_cons_self
    · obtain ⟨c, hc, hcname⟩ := List.mem_map.1 hmem
      exact hcname ▸ List.mem_cons_of_mem _ (List.mem_map_of_mem (List.mem_of_mem_take hc))
  refine ⟨firsts [p.main.name] ClassDecl.name (p.classes.take n), firsts
    ([p.main.name] ++ (p.classes.take n).map ClassDecl.name) ClassDecl.name (p.classes.drop n),
    ?_, ?_⟩
  · rw [← firsts_append, List.take_append_drop]
    rfl
  · rw [liveClasses, insertClass, firsts_append, firsts_cons, if_neg hfresh,
      firsts_append_fresh (hp.name_not_mem_drop n)]

lemma get?_insertClass (hp : p.SilentOn d.name) (n : Nat) :
    (p.insertClass n d).hierarchy.get? d.name = some d.info.1 := by
  obtain ⟨ahead, behind, _, hq⟩ := hp.liveClasses_insertClass n
  exact get?_hierarchy_live (hq ▸ List.mem_append_right _ List.mem_cons_self)

theorem extendedBy_insertClass (hp : p.SilentOn d.name) (n : Nat) :
    p.hierarchy.ExtendedBy d.name (p.insertClass n d).hierarchy where
  get? name hname := by
    obtain ⟨ahead, behind, hlive, hq⟩ := hp.liveClasses_insertClass n
    apply Option.ext
    intro c
    have hmain : (p.insertClass n d).main = p.main := rfl
    rw [get?_hierarchy_iff_live, get?_hierarchy_iff_live, hlive, hq, hmain]
    simp only [List.mem_append, List.mem_cons, or_and_right, exists_or, exists_eq_left,
      Ne.symm hname, false_and, false_or]
  among name c hc := by
    rcases (get?_hierarchy_iff_live p name c).1 hc with ⟨_, rfl⟩ | ⟨e, he, _, rfl⟩
    · exact MainClass.among_info fun heq => hp.fresh (heq ▸ List.mem_cons_self)
    · exact (hp.class_among (mem_of_mem_firsts he)).info

/-- The collection tells of the new class in its place, and of the others what it told before. -/
lemma told_insertClass (hp : p.SilentOn d.name) (n : Nat) :
    ∃ behind, (Hierarchy.collect .empty p).2 =
        (Hierarchy.collect .empty (p.takeClasses n)).2 ++ behind ∧
      (Hierarchy.collect .empty (p.insertClass n d)).2 =
        (Hierarchy.collect .empty (p.takeClasses n)).2 ++ d.repeats ++ behind := by
  let told (x : List String × ClassDecl) : List Diagnostic :=
    duplicate (p.main.name :: x.1) x.2.name x.2.line ++ x.2.info.2
  let names := (p.classes.take n).map ClassDecl.name
  have htold : ∀ classes, (Hierarchy.collect .empty { p with classes := classes }).2 =
      (withEarlier ClassDecl.name classes).flatMap told := fun classes =>
    told_collect_classes { p with classes := classes }
  have hown : told (names, d) = d.repeats := by
    have hfresh : d.name ∉ p.main.name :: names := fun hmem =>
      hp.fresh (List.cons_subset_cons _ ((List.take_sublist n _).map _).subset hmem)
    simp only [told, duplicate, if_neg hfresh, List.nil_append, d.info_told]
  -- whether a name behind is taken does not depend on the new one
  have hbehind : ∀ x ∈ withEarlier ClassDecl.name (p.classes.drop n),
      told (names ++ d.name :: x.1, x.2) = told (names ++ x.1, x.2) := by
    intro x hx
    have hmem : x.2 ∈ (withEarlier ClassDecl.name (p.classes.drop n)).map Prod.snd :=
      List.mem_map_of_mem hx
    rw [map_snd_withEarlier] at hmem
    have hne := (hp.class_among (List.mem_of_mem_drop hmem)).name
    simp [told, duplicate, hne]
  refine ⟨(withEarlier ClassDecl.name (p.classes.drop n)).flatMap
    fun x => told (names ++ x.1, x.2), ?_, ?_⟩
  · calc (Hierarchy.collect .empty p).2
        = (withEarlier ClassDecl.name (p.classes.take n ++ p.classes.drop n)).flatMap told := by
          rw [List.take_append_drop]
          exact htold p.classes
      _ = _ := by rw [withEarlier_append, List.flatMap_append, List.flatMap_map, takeClasses, htold]
  · rw [insertClass, takeClasses, htold, htold, withEarlier_append, withEarlier_cons,
      List.flatMap_append, List.map_cons, List.flatMap_cons, List.append_nil, hown, List.map_map,
      List.flatMap_map, ← List.flatMap_congr hbehind, List.append_assoc]
    rfl

lemma check_main (hp : p.SilentOn d.name) (n : Nat) :
    p.main.body.check (p.insertClass n d).hierarchy p.mainContext =
      p.main.body.check p.hierarchy p.mainContext := by
  have hctx : p.mainContext.AlikeOn (· ≠ d.name) p.mainContext := by
    refine ⟨rfl, fun heq => hp.fresh (heq ▸ List.mem_cons_self), fun _ => rfl, ?_⟩
    intro x t ht
    obtain ⟨_, rfl⟩ := (p.sees_main.resolve x t).1 ht
    trivial
  exact ((hp.extendedBy_insertClass n).alikeOn.check hctx fun m hm =>
    hp.mention_among (List.mem_append_left _ hm)).symm

lemma freshFindings_old (hp : p.SilentOn d.name) (n : Nat) {cs : List ClassDecl}
    (hcs : cs ⊆ p.classes) : cs.flatMap (·.freshFindings (p.insertClass n d).hierarchy) =
      cs.flatMap (·.freshFindings p.hierarchy) :=
  List.flatMap_congr fun c hc =>
    c.freshFindings_extendedBy (hp.extendedBy_insertClass n) (hp.class_among (hcs hc))

lemma freshFindings_new (hp : p.SilentOn d.name) (n : Nat) :
    d.freshFindings (p.insertClass n d).hierarchy =
      d.findings (p.insertClass n d).hierarchy ⟨d.info.1, .empty⟩ := by
  have hlive : d.live? (p.insertClass n d).hierarchy = some d.info.1 := by
    rw [ClassDecl.live?, hp.get?_insertClass n]
    simp [ClassDecl.info, Origin.isDecl, Option.filter]
  rw [ClassDecl.freshFindings, hlive]

/-- The second pass finds what is wrong with the new class in its place, and with the others what it
found before. -/
lemma found_insertClass (hp : p.SilentOn d.name) (n : Nat) :
    ∃ found behind, ((p.takeClasses n).checkAgainst p.hierarchy).Finds () found ∧
      (p.checkAgainst p.hierarchy).Finds () (found ++ behind) ∧
      ((p.insertClass n d).checkAgainst (p.insertClass n d).hierarchy).Finds ()
        (found ++ d.findings (p.insertClass n d).hierarchy ⟨d.info.1, .empty⟩ ++ behind) := by
  refine ⟨p.main.body.check p.hierarchy p.mainContext ++
    (p.classes.take n).flatMap (·.freshFindings p.hierarchy),
    (p.classes.drop n).flatMap (·.freshFindings p.hierarchy), ?_, ?_, ?_⟩
  · exact checkAgainst_finds (p := p.takeClasses n) p.context?_mainClass
  · have hall := checkAgainst_finds p.context?_mainClass
    rwa [← List.take_append_drop n p.classes, List.flatMap_append, ← List.append_assoc] at hall
  · have hnew := checkAgainst_finds (p.insertClass n d).context?_mainClass
    have hclasses : (p.insertClass n d).classes = p.classes.take n ++ d :: p.classes.drop n := rfl
    have hctx : (p.insertClass n d).mainContext = p.mainContext := rfl
    have hbody : (p.insertClass n d).main.body = p.main.body := rfl
    rw [hclasses, List.flatMap_append, List.flatMap_cons, hp.freshFindings_new n,
      hp.freshFindings_old n (List.take_subset n _), hp.freshFindings_old n (List.drop_subset n _),
      hctx, hbody, hp.check_main n] at hnew
    simpa only [List.append_assoc] using hnew

end SilentOn

/-- Put one more class anywhere among the classes of a program that does not speak of it. In both
passes the new program gets the findings of the old one, and between those of the classes before the
new one and the rest, what is wrong with the new class itself: the names it declares twice, and what
its check finds. -/
theorem unrelated_class_only_adds {p : Program} {d : ClassDecl} (hname : d.name ∉ p.classNames)
    (hunused : ∀ line, Mention.ofClass d.name line ∉ p.mentions) (n : Nat) :
    let q := p.insertClass n d
    ∃ told toldBehind found foundBehind own,
      (Hierarchy.collect .empty (p.takeClasses n)).2 = told ∧
      (Hierarchy.collect .empty p).2 = told ++ toldBehind ∧
      (Hierarchy.collect .empty q).2 = told ++ d.repeats ++ toldBehind ∧
      ((p.takeClasses n).checkAgainst p.hierarchy).Finds () found ∧
      (p.checkAgainst p.hierarchy).Finds () (found ++ foundBehind) ∧
      (d.check q.hierarchy ⟨d.info.1, .empty⟩).Finds ⟨d.info.1, .empty⟩ own ∧
      (q.checkAgainst q.hierarchy).Finds () (found ++ own ++ foundBehind) ∧
      p.Reports (told ++ toldBehind ++ (found ++ foundBehind)) ∧
      q.Reports (told ++ d.repeats ++ toldBehind ++ (found ++ own ++ foundBehind)) := by
  intro q
  have hp : p.SilentOn d.name := ⟨hname, hunused⟩
  obtain ⟨toldBehind, htold, htoldq⟩ := hp.told_insertClass n
  obtain ⟨found, foundBehind, hbefore, hfound, hfoundq⟩ := hp.found_insertClass n
  refine ⟨_, toldBehind, found, foundBehind, _, rfl, htold, htoldq, hbefore, hfound,
    d.check_finds _ _, hfoundq, ?_, ?_⟩
  · rw [← htold]
    exact hfound.reports
  · rw [← htoldq]
    exact hfoundq.reports

/-- A subclass of `A` with a field declared twice, a name without a declaration, and a method that
does not agree with the one it overrides. -/
def twinsGuest : ClassDecl :=
  ⟨7, "D", some "A", [⟨⟨.int, none⟩, "f", none⟩, ⟨⟨.int, none⟩, "f", some 10⟩],
    [⟨8, ⟨.boolean, none⟩, "m", [], [], [], .identifier "g" (some 11), some 12⟩], none⟩

/-- The new class stands between the two classes `A`. -/
theorem unrelated_class_only_adds_twins :
    twinsGuest.name ∉ twins.classNames ∧
      (∀ line, Mention.ofClass twinsGuest.name line ∉ twins.mentions) ∧
      ∃ told toldBehind found foundBehind,
        twins.Reports (told ++ toldBehind ++ (found ++ foundBehind)) ∧
        (twins.insertClass 1 twinsGuest).Reports
          (told ++ [⟨.duplicateDefinition "f", some 10⟩] ++ toldBehind ++
            (found ++ [⟨.undefinedIdentifier "g", some 11⟩, ⟨.invalidOverride "D" "m", some 12⟩] ++
              foundBehind)) := by
  have hname : twinsGuest.name ∉ twins.classNames := by decide
  have hmentions : twins.mentions = [.ofClass "A" none, .ofVar "z" (some 6), .ofClass "B" (some 7),
      .ofClass "C" none, .ofVar "z" (some 8)] := by decide
  have hunused : ∀ line, Mention.ofClass twinsGuest.name line ∉ twins.mentions := by
    simp [hmentions, twinsGuest]
  obtain ⟨told, toldBehind, found, foundBehind, own, _, _, _, _, _, hown, _, hreports, hnew⟩ :=
    unrelated_class_only_adds hname hunused 1
  have hrepeats : twinsGuest.repeats = [⟨.duplicateDefinition "f", some 10⟩] := by decide
  have hfound : twinsGuest.findings (twins.insertClass 1 twinsGuest).hierarchy
      ⟨twinsGuest.info.1, .empty⟩ =
        [⟨.undefinedIdentifier "g", some 11⟩, ⟨.invalidOverride "D" "m", some 12⟩] := by decide
  rw [hrepeats, ← hown.diagnostics, (twinsGuest.check_finds _ _).diagnostics, hfound] at hnew
  exact ⟨hname, hunused, told, toldBehind, found, foundBehind, hreports, hnew⟩

end Program

end MiniJava
