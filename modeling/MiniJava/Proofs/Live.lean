import MiniJava.Proofs.Acceptance

/-!
# Declarations that count

Of several declarations of one name the first is the one that is known. A check recognises it by its
number. As long as different declarations have different numbers, a declaration that is recognised
is known as it is written. As long as no number stands twice, all declarations but the first are
passed over, wherever they stand and however many they are.
-/

namespace MiniJava

/-- A table holds `extra` and behind it the first items of their names. Asked for the name of an
item it answers with that item's own value only if the name was not taken before. -/
lemma filter_get?_firsts {δ α : Type} {key : δ → String} {value : δ → α} {number : δ → Nat}
    (origin : α → Origin) (extra : List (String × α)) {b : Bindings α} {before after : List δ}
    {d : δ}
    (hentries : b.entries = extra ++
      (firsts (extra.map Prod.fst) key (before ++ d :: after)).map fun e => (key e, value e))
    (hextra : ∀ e ∈ extra, (origin e.2).isDecl (number d) = false)
    (hown : ∀ e, (origin (value e)).isDecl (number d) = true ↔ number e = number d)
    (hnumbers : ((before ++ d :: after).map number).Nodup) :
    (b.get? (key d)).filter (fun v => (origin v).isDecl (number d)) =
      if key d ∈ extra.map Prod.fst ++ before.map key then none else some (value d) := by
  by_cases htaken : key d ∈ extra.map Prod.fst ++ before.map key
  · rw [if_pos htaken, Option.filter_eq_none_iff]
    intro v hv hdv
    rw [Bindings.get?_eq_some_iff, hentries, List.mem_append] at hv
    rcases hv with hv | hv
    · rw [hextra _ hv] at hdv
      cases hdv
    · obtain ⟨e, he, heq⟩ := List.mem_map.1 hv
      obtain rfl : value e = v := congrArg Prod.snd heq
      -- the value is that of `d` itself, which would then be the first of its name
      obtain rfl : e = d := List.inj_on_of_nodup_map hnumbers (mem_of_mem_firsts he) (by simp)
        ((hown e).1 hdv)
      refine not_mem_firsts_of_taken htaken ?_ he
      intro hmem
      rw [List.map_append, List.nodup_append] at hnumbers
      exact hnumbers.2.2 _ (List.mem_map_of_mem hmem) _ (by simp) rfl
  · have hmem : (key d, value d) ∈ b.entries := by
      rw [hentries]
      exact List.mem_append_right _ (List.mem_map.2 ⟨d, mem_firsts_of_fresh htaken after, rfl⟩)
    rw [if_neg htaken, (Bindings.get?_eq_some_iff b _ _).2 hmem, Option.filter_some,
      if_pos ((hown d).2 rfl)]

namespace MethodDecl

variable {c : ClassDecl} {m : MethodDecl} {earlier later : List MethodDecl}

lemma live?_info (hc : (c.methods.map MethodDecl.id).Nodup)
    (hm : c.methods = earlier ++ m :: later) :
    m.live? c.info.1 =
      if m.name ∈ earlier.map MethodDecl.name then none else some m.info.1 := by
  have hentries := c.entries_methods_firsts
  rw [hm] at hc hentries
  exact filter_get?_firsts MethodInfo.origin [] hentries (by simp)
    (fun e => by simp [MethodDecl.info, MethodDecl.origin, Origin.isDecl]) hc

/-- What is found in a method that is known by its name. -/
def liveFindings (h : Hierarchy) (ctx : Context) (m : MethodDecl) : List Diagnostic :=
  m.checkTypes h m.info.1 ++ m.checkBody h (ctx.enter m.info.1.scope) m.info.1

lemma findings_of_split (hc : (c.methods.map MethodDecl.id).Nodup)
    (hm : c.methods = earlier ++ m :: later) (h : Hierarchy) {ctx : Context}
    (hctx : ctx.owner = c.info.1) :
    m.findings h ctx =
      if m.name ∈ earlier.map MethodDecl.name then [] else m.liveFindings h ctx := by
  rw [findings, hctx, live?_info hc hm]
  by_cases htaken : m.name ∈ earlier.map MethodDecl.name
  · rw [if_pos htaken, if_pos htaken]
  · rw [if_neg htaken, if_neg htaken]
    rfl

end MethodDecl

namespace ClassDecl

/-- The methods that are known by their names. -/
def liveMethods (c : ClassDecl) : List MethodDecl := firsts [] MethodDecl.name c.methods

/-- A number is that of one method of the class only, however often it is listed. -/
def IdentifiedByNumber (c : ClassDecl) : Prop :=
  ∀ m ∈ c.methods, ∀ n ∈ c.methods, m.id = n.id → m = n

lemma identified_of_nodup {c : ClassDecl} (hc : (c.methods.map MethodDecl.id).Nodup) :
    c.IdentifiedByNumber :=
  fun _ hm _ hn heq => List.inj_on_of_nodup_map hc hm hn heq

/-- The method known by the name of a declaration is that declaration's own if it has its number. -/
lemma live?_method_eq_some_iff {c : ClassDecl} (hc : c.IdentifiedByNumber) {m : MethodDecl}
    (hm : m ∈ c.methods) (i : MethodInfo) :
    m.live? c.info.1 = some i ↔ m ∈ c.liveMethods ∧ i = m.info.1 := by
  rw [MethodDecl.live?, Option.filter_eq_some_iff, Bindings.get?_eq_some_iff,
    c.entries_methods_firsts]
  constructor
  · rintro ⟨hmem, hown⟩
    obtain ⟨n, hn, heq⟩ := List.mem_map.1 hmem
    obtain rfl : n.info.1 = i := congrArg Prod.snd heq
    have hid : n.id = m.id := by
      simpa [MethodDecl.info, MethodDecl.origin, Origin.isDecl] using hown
    obtain rfl := hc n (mem_of_mem_firsts hn) m hm hid
    exact ⟨hn, rfl⟩
  · rintro ⟨hlive, rfl⟩
    exact ⟨List.mem_map.2 ⟨m, hlive, rfl⟩,
      by simp [MethodDecl.info, MethodDecl.origin, Origin.isDecl]⟩

lemma flatMap_findings {c : ClassDecl} (hc : (c.methods.map MethodDecl.id).Nodup) (h : Hierarchy)
    {ctx : Context} (hctx : ctx.owner = c.info.1) :
    c.methods.flatMap (·.findings h ctx) = c.liveMethods.flatMap (·.liveFindings h ctx) := by
  apply flatMap_eq_flatMap_firsts
  intro earlier m later hm
  rw [MethodDecl.findings_of_split hc hm h hctx, List.nil_append]

end ClassDecl

namespace Program

/-- No two classes, and inside a class no two methods, have the same number. -/
structure DistinctNumbers (p : Program) : Prop where
  classes : (p.classes.map ClassDecl.id).Nodup
  methods : ∀ c ∈ p.classes, (c.methods.map MethodDecl.id).Nodup

/-- The check ends with exactly these findings: the program is accepted if there are none and else
refused with all of them. -/
def Reports (p : Program) (ds : List Diagnostic) : Prop :=
  p.check = if ds.isEmpty then .ok ⟨p, p.hierarchy⟩ else .error (.findings ds)

variable {p : Program} {c : ClassDecl} {before after : List ClassDecl}

lemma live?_hierarchy (hp : p.DistinctNumbers) (hc : p.classes = before ++ c :: after) :
    c.live? p.hierarchy =
      if c.name ∈ p.main.name :: before.map ClassDecl.name then none else some c.info.1 := by
  have hentries := p.entries_hierarchy_firsts
  have hnumbers := hp.classes
  rw [hc] at hentries hnumbers
  rw [ClassDecl.live?, get?_hierarchy]
  exact filter_get?_firsts ClassInfo.origin [(p.main.name, p.main.info)] hentries
    (by simp [MainClass.info, Origin.isDecl]) (fun e => by simp [ClassDecl.info, Origin.isDecl])
    hnumbers

/-- A number is that of one class declaration only, however often it is listed. -/
def IdentifiedByNumber (p : Program) : Prop :=
  ∀ c ∈ p.classes, ∀ d ∈ p.classes, c.id = d.id → c = d

lemma DistinctNumbers.identified (hp : p.DistinctNumbers) : p.IdentifiedByNumber :=
  fun _ hc _ hd heq => List.inj_on_of_nodup_map hp.classes hc hd heq

/-- The class known by the name of a declaration is that declaration's own if it has its number. -/
lemma live?_eq_some_iff (hp : p.IdentifiedByNumber) {d : ClassDecl} (hd : d ∈ p.classes)
    (owner : ClassInfo) :
    d.live? p.hierarchy = some owner ↔ d ∈ p.liveClasses ∧ owner = d.info.1 := by
  rw [ClassDecl.live?, Option.filter_eq_some_iff]
  constructor
  · rintro ⟨hget, hown⟩
    rcases (get?_hierarchy_iff_live p _ _).1 hget with ⟨_, rfl⟩ | ⟨e, he, _, rfl⟩
    · cases hown
    · have hid : e.id = d.id := by simpa [ClassDecl.info, Origin.isDecl] using hown
      obtain rfl := hp e (mem_of_mem_firsts he) d hd hid
      exact ⟨he, rfl⟩
  · rintro ⟨hlive, rfl⟩
    exact ⟨get?_hierarchy_live hlive, by simp [ClassDecl.info, Origin.isDecl]⟩

/-- What is found in a class that is known by its name. -/
def liveFindings (p : Program) (c : ClassDecl) : List Diagnostic :=
  c.findings p.hierarchy ⟨c.info.1, .empty⟩

lemma freshFindings_of_split (hp : p.DistinctNumbers) (hc : p.classes = before ++ c :: after) :
    c.freshFindings p.hierarchy =
      if c.name ∈ p.main.name :: before.map ClassDecl.name then [] else p.liveFindings c := by
  rw [ClassDecl.freshFindings, live?_hierarchy hp hc]
  by_cases htaken : c.name ∈ p.main.name :: before.map ClassDecl.name
  · rw [if_pos htaken, if_pos htaken]
  · rw [if_neg htaken, if_neg htaken]
    rfl

lemma flatMap_freshFindings (hp : p.DistinctNumbers) :
    p.classes.flatMap (·.freshFindings p.hierarchy) = p.liveClasses.flatMap p.liveFindings := by
  apply flatMap_eq_flatMap_firsts
  intro before c after hc
  rw [freshFindings_of_split hp hc, List.singleton_append]

/-- Of class `A` there are two declarations, and in the first of them two methods `m`; a third class
is called like the main class. All of them have something wrong with them. -/
def twins : Program where
  main := ⟨"Main", "args", .print (.call (.newObject "A" none) "m" [] none) none, none⟩
  classes :=
    [⟨1, "A", none, [⟨⟨.int, none⟩, "x", none⟩, ⟨⟨.int, none⟩, "x", some 2⟩],
        [⟨2, ⟨.int, none⟩, "m", [], [], [], .boolLiteral true (some 3), none⟩,
          ⟨3, ⟨.int, none⟩, "m", [⟨⟨.int, none⟩, "y", none⟩, ⟨⟨.int, none⟩, "y", some 5⟩], [], [],
            .identifier "z" (some 6), some 4⟩], none⟩,
      ⟨4, "A", some "B", [⟨⟨.ofClass "C", none⟩, "x", none⟩],
        [⟨5, ⟨.int, none⟩, "n", [], [], [], .identifier "z" (some 8), none⟩], some 7⟩,
      ⟨6, "Main", none, [], [], some 9⟩]
  line := none

lemma distinctNumbers_twins : twins.DistinctNumbers := by
  have hmethods : ∀ c ∈ twins.classes, (c.methods.map MethodDecl.id).Nodup := by decide
  exact ⟨by decide, hmethods⟩

end Program

end MiniJava
