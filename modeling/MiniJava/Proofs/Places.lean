import MiniJava.Proofs.Modularity

/-!
# Another declaration in its place

A class or a method of a program is exchanged for another one of the same name. Which classes there
are and which extends which stays the same, and so do the methods that the classes declare, but for
the one that was exchanged. As long as no class above or below has a method of its name, the program
overrides as it should whatever the new signature is.
-/

namespace MiniJava
open Relation

/-- A class of a program, with what stands before and behind it. -/
structure ClassPlace (p : Program) where
  before : List ClassDecl
  owner : ClassDecl
  after : List ClassDecl
  classes_eq : p.classes = before ++ owner :: after

/-- The program with another class in that place. -/
def ClassPlace.replace {p : Program} (place : ClassPlace p) (c : ClassDecl) : Program :=
  { p with classes := place.before ++ c :: place.after }

namespace MethodPlace

variable {p : Program} (place : MethodPlace p)

def classPlace : ClassPlace p := ⟨place.before, place.owner, place.after, place.classes_eq⟩

/-- The class with another method in that place. -/
def ownerReplacing (m : MethodDecl) : ClassDecl :=
  { place.owner with methods := place.earlier ++ m :: place.later }

/-- The program with another method in that place. -/
def replace (m : MethodDecl) : Program := place.classPlace.replace (place.ownerReplacing m)

/-- No other class above or below declares a method of that name. -/
def Sole : Prop :=
  ∀ c ∈ p.classes, c.name ≠ place.owner.name →
    (p.hierarchy.derivesFrom c.name place.owner.name = true ∨
      p.hierarchy.derivesFrom place.owner.name c.name = true) →
    place.method.name ∉ c.methods.map MethodDecl.name

instance : Decidable place.Sole :=
  inferInstanceAs (Decidable (∀ c ∈ p.classes, _))

end MethodPlace

lemma Program.declared_iff_of_classNames {p q : Program} (hnames : q.classNames = p.classNames)
    (t : Ty) : q.Declared t ↔ p.Declared t := by
  cases t with
  | object c => rw [Declared, Declared, hnames]
  | _ => exact Iff.rfl

lemma forall₂_replace {α : Type} {R : α → α → Prop} (hrefl : ∀ a, R a a) (before after : List α)
    {a b : α} (hab : R a b) : List.Forall₂ R (before ++ a :: after) (before ++ b :: after) :=
  List.rel_append (List.forall₂_same.2 fun a _ => hrefl a)
    (.cons hab (List.forall₂_same.2 fun a _ => hrefl a))

/-- What the nearest class has is related to what it has in a program with the same links, if that
holds of every single class. -/
lemma Program.Nearest.related {p q : Program} {α β : Type} {R : α → β → Prop}
    {Has : String → α → Prop} {Has' : String → β → Prop} (hlinks : q.Extends = p.Extends)
    (hto : ∀ c x, Has c x → ∃ y, Has' c y ∧ R x y) (hfrom : ∀ c y, Has' c y → ∃ x, Has c x)
    {c : String} {x : α} (hx : p.Nearest Has c x) : ∃ y, q.Nearest Has' c y ∧ R x y := by
  induction hx with
  | own hx =>
    obtain ⟨y, hy, hxy⟩ := hto _ _ hx
    exact ⟨y, .own hy, hxy⟩
  | inherited hnone hd _ ih =>
    obtain ⟨y, hy, hxy⟩ := ih
    refine ⟨y, .inherited ?_ (hlinks ▸ hd) hy, hxy⟩
    intro z hz
    obtain ⟨w, hw⟩ := hfrom _ _ hz
    exact hnone w hw

lemma Program.OverridesSame.of_hasMethod {p q : Program} (hp : p.OverridesSame)
    (hlinks : q.Extends = p.Extends) (hfrom : ∀ m c s, q.HasMethod m c s → p.HasMethod m c s) :
    q.OverridesSame := by
  intro a b hab m s t hs ht
  exact hp a b (hlinks ▸ hab) m s t (hfrom m a s hs) (hfrom m b t ht)

/-! ### Another class -/

namespace ClassPlace

variable {p : Program} {place : ClassPlace p} {c : ClassDecl}

lemma mem_classes (place : ClassPlace p) (d : ClassDecl) :
    d ∈ p.classes ↔ d = place.owner ∨ d ∈ place.before ++ place.after := by
  rw [place.classes_eq]
  simp [or_left_comm]

lemma mem_replace (d : ClassDecl) :
    d ∈ (place.replace c).classes ↔ d = c ∨ d ∈ place.before ++ place.after := by
  simp [replace, or_left_comm]

lemma replace_owner (place : ClassPlace p) : place.replace place.owner = p := by
  rw [replace, ← place.classes_eq]

lemma owner_mem : place.owner ∈ p.classes := (place.mem_classes _).2 (.inl rfl)

lemma mem_of_mem_others {d : ClassDecl} (hd : d ∈ place.before ++ place.after) : d ∈ p.classes :=
  (place.mem_classes d).2 (.inr hd)

lemma name_ne_of_mem_others (hp : p.classNames.Nodup) {d : ClassDecl}
    (hd : d ∈ place.before ++ place.after) : d.name ≠ place.owner.name := by
  have hnames := (List.nodup_cons.1 hp).2
  rw [place.classes_eq, (List.perm_middle.map ClassDecl.name).nodup_iff] at hnames
  intro heq
  exact (List.nodup_cons.1 hnames).1 (heq ▸ List.mem_map_of_mem hd)

lemma classNames_replace (hname : c.name = place.owner.name) :
    (place.replace c).classNames = p.classNames := by
  simp only [Program.classNames, replace, place.classes_eq, List.map_append, List.map_cons, hname]

lemma extends_replace (hname : c.name = place.owner.name)
    (hsuper : c.superName = place.owner.superName) : (place.replace c).Extends = p.Extends := by
  funext a b
  simp only [Program.Extends, mem_replace, place.mem_classes, or_and_right, exists_or,
    exists_eq_left, hname, hsuper]

lemma distinctNames_replace (hp : p.DistinctNames) (hname : c.name = place.owner.name)
    (hc : c.DistinctNames) : (place.replace c).DistinctNames where
  classes := by
    rw [classNames_replace hname]
    exact hp.classes
  members d hd := by
    rcases (mem_replace d).1 hd with rfl | hd
    · exact hc
    · exact hp.members d (mem_of_mem_others hd)

lemma regular_replace (hr : p.Regular) (hname : c.name = place.owner.name)
    (hsuper : c.superName = place.owner.superName) (hc : c.DistinctNames) :
    (place.replace c).Regular where
  distinct := distinctNames_replace hr.distinct hname hc
  closed := by
    rw [extends_replace hname hsuper, classNames_replace hname]
    exact hr.closed
  acyclic := by
    rw [extends_replace hname hsuper]
    exact hr.acyclic

end ClassPlace

/-! ### Another method -/

namespace MethodPlace

variable {p : Program} {place : MethodPlace p} {m : MethodDecl}

lemma replace_method (place : MethodPlace p) : place.replace place.method = p := by
  rw [replace, ownerReplacing, ← place.methods_eq]
  exact place.classPlace.replace_owner

lemma owner_mem : place.owner ∈ p.classes := place.classPlace.owner_mem

lemma method_mem : place.method ∈ place.owner.methods := by
  rw [place.methods_eq]
  simp

/-- The exchanged method is the only one of its name in the class. -/
lemma mem_others_iff (hp : p.DistinctNames) (n : MethodDecl) :
    n ∈ place.earlier ++ place.later ↔
      n ∈ place.owner.methods ∧ n.name ≠ place.method.name := by
  have hnames := (hp.members _ place.owner_mem).methods
  rw [place.methods_eq, (List.perm_middle.map MethodDecl.name).nodup_iff] at hnames
  have hfresh := (List.nodup_cons.1 hnames).1
  rw [place.methods_eq, List.perm_middle.mem_iff, List.mem_cons]
  constructor
  · intro hn
    exact ⟨.inr hn, fun heq => hfresh (heq ▸ List.mem_map_of_mem hn)⟩
  · rintro ⟨rfl | hn, hne⟩
    · exact absurd rfl hne
    · exact hn

/-- The methods that the new program declares: the exchanged one with its new signature, and all the
others of the old program. -/
theorem hasMethod_replace (hp : p.DistinctNames) (hname : m.name = place.method.name)
    (n a : String) (s : Signature) :
    (place.replace m).HasMethod n a s ↔
      (n = place.method.name ∧ a = place.owner.name ∧ s = m.sig) ∨
        ¬ (n = place.method.name ∧ a = place.owner.name) ∧ p.HasMethod n a s := by
  have hnames : (p.main.name :: p.classes.map ClassDecl.name).Nodup := hp.classes
  have hmain : ∀ c ∈ p.classes, c.name ≠ p.main.name := fun c hc heq =>
    (List.nodup_cons.1 hnames).1 (heq ▸ List.mem_map_of_mem hc)
  constructor
  · intro hm
    cases hm with
    | main =>
      exact .inr ⟨fun hand => hmain _ place.owner_mem hand.2.symm, .main⟩
    | @declared c i hc hi =>
      rcases (ClassPlace.mem_replace c).1 hc with rfl | hc
      · rcases List.mem_cons.1 (List.perm_middle.mem_iff.1 hi) with rfl | hi
        · exact .inl ⟨hname, rfl, rfl⟩
        · obtain ⟨hi, hne⟩ := (mem_others_iff hp i).1 hi
          exact .inr ⟨fun hand => hne hand.1, .declared (c := place.owner) place.owner_mem hi⟩
      · have hne := ClassPlace.name_ne_of_mem_others hp.classes hc
        exact .inr ⟨fun hand => hne hand.2, .declared (ClassPlace.mem_of_mem_others hc) hi⟩
  · have hown : place.ownerReplacing m ∈ (place.replace m).classes :=
      (ClassPlace.mem_replace _).2 (.inl rfl)
    rintro (⟨rfl, rfl, rfl⟩ | ⟨hne, hm⟩)
    · have hmem : m ∈ (place.ownerReplacing m).methods :=
        List.mem_append_right _ List.mem_cons_self
      rw [← hname]
      exact .declared (c := place.ownerReplacing m) hown hmem
    · cases hm with
      | main => exact .main
      | @declared c i hc hi =>
        rcases (place.classPlace.mem_classes c).1 hc with rfl | hc
        · have hother := (mem_others_iff hp i).2 ⟨hi, fun heq => hne ⟨heq, rfl⟩⟩
          have hmem : i ∈ (place.ownerReplacing m).methods :=
            List.perm_middle.mem_iff.2 (List.mem_cons_of_mem _ hother)
          exact .declared (c := place.ownerReplacing m) hown hmem
        · exact .declared ((ClassPlace.mem_replace c).2 (.inr hc)) hi

lemma classNames_replace (m : MethodDecl) : (place.replace m).classNames = p.classNames :=
  ClassPlace.classNames_replace rfl

lemma extends_replace (m : MethodDecl) : (place.replace m).Extends = p.Extends :=
  ClassPlace.extends_replace rfl rfl

lemma distinctNames_ownerReplacing (hp : p.DistinctNames) (hname : m.name = place.method.name)
    (hm : m.DistinctNames) : (place.ownerReplacing m).DistinctNames := by
  obtain ⟨hfields, hmethods, hvars⟩ := hp.members _ place.owner_mem
  rw [place.methods_eq] at hmethods hvars
  refine ⟨hfields, ?_, ?_⟩
  · simp only [ownerReplacing, List.map_append, List.map_cons, hname] at hmethods ⊢
    exact hmethods
  · simp only [ownerReplacing, List.forall_mem_append, List.forall_mem_cons] at hvars ⊢
    exact ⟨hvars.1, hm, hvars.2.2⟩

lemma regular_replace (hr : p.Regular) (hname : m.name = place.method.name)
    (hm : m.DistinctNames) : (place.replace m).Regular :=
  ClassPlace.regular_replace hr rfl rfl (distinctNames_ownerReplacing hr.distinct hname hm)

/-- A related class that declares the method at all does so with the old signature. It is not the
main class: no written type is void. -/
lemma sig_of_related (hp : p.WellTyped) {a : String} {s : Signature}
    (hrelated : TransGen p.Extends a place.owner.name ∨ TransGen p.Extends place.owner.name a)
    (hs : p.HasMethod place.method.name a s) :
    s = place.method.sig ∧ ∃ c ∈ p.classes, c.name = a ∧
      place.method.name ∈ c.methods.map MethodDecl.name := by
  have hover := hp.override_same
  have hown : p.HasMethod place.method.name place.owner.name place.method.sig :=
    .declared place.owner_mem place.method_mem
  have heq : s = place.method.sig := by
    rcases hrelated with hbelow | habove
    · exact hover _ _ hbelow _ _ _ hs hown
    · exact (hover _ _ habove _ _ _ hown hs).symm
  refine ⟨heq, ?_⟩
  generalize hname : place.method.name = n at hs ⊢
  cases hs with
  | main =>
    have hvoid : Ty.void = place.method.returnType.ty := congrArg Signature.result heq
    exact absurd hvoid.symm place.method.returnType.type.ty_ne_void
  | @declared c i hc hi => exact ⟨c, hc, rfl, List.mem_map_of_mem hi⟩

lemma Sole.not_hasMethod (hsole : place.Sole) (hp : p.WellTyped) {a : String} {s : Signature}
    (hrelated : TransGen p.Extends a place.owner.name ∨ TransGen p.Extends place.owner.name a) :
    ¬ p.HasMethod place.method.name a s := by
  intro hs
  obtain ⟨_, c, hc, rfl, hmem⟩ := sig_of_related hp hrelated hs
  refine hsole c hc ?_ ?_ hmem
  · intro heq
    rw [heq] at hrelated
    exact hp.acyclic _ (hrelated.elim id id)
  · rw [hp.derivesFrom_iff, hp.derivesFrom_iff]
    exact hrelated.imp TransGen.to_reflTransGen TransGen.to_reflTransGen

/-- With no related method the new signature can be anything. -/
theorem overridesSame_replace (hp : p.WellTyped) (hsole : place.Sole)
    (hname : m.name = place.method.name) : (place.replace m).OverridesSame := by
  intro a b hab n s t hs ht
  rw [extends_replace] at hab
  -- the exchanged method is alone on its chain, and any two others are as they were
  rcases (hasMethod_replace hp.distinct hname n a s).1 hs with ⟨rfl, rfl, rfl⟩ | ⟨_, hs⟩
  · rcases (hasMethod_replace hp.distinct hname _ b t).1 ht with ⟨_, rfl, rfl⟩ | ⟨_, ht⟩
    · rfl
    · exact absurd ht (hsole.not_hasMethod hp (.inr hab))
  · rcases (hasMethod_replace hp.distinct hname n b t).1 ht with ⟨rfl, rfl, rfl⟩ | ⟨_, ht⟩
    · exact absurd hs (hsole.not_hasMethod hp (.inl hab))
    · exact hp.override_same a b hab n s t hs ht

end MethodPlace

end MiniJava
