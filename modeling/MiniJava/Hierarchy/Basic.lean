import MiniJava.Hierarchy.Info

/-!
# Class hierarchies

Classes by name, each with the name of its superclass. A superclass may be unknown and the chain of
superclasses may run in a circle; every walk up the chain ends at the first class it would meet a
second time.
-/

namespace MiniJava

abbrev Hierarchy := Scope ClassInfo

namespace Hierarchy

def superclass? (h : Hierarchy) (c : ClassInfo) : Option ClassInfo :=
  c.superName.bind h.get?

/-- At most `fuel` classes up the chain, from `start`, until one that is called like one seen. -/
def walkFor (h : Hierarchy) : Nat → List String → Option ClassInfo → List ClassInfo
  | fuel + 1, seen, some c =>
    if seen.any (· == c.name) then []
    else c :: h.walkFor fuel (c.name :: seen) (h.superclass? c)
  | _, _, _ => []

/-- The classes up the chain from `start` until one that is called like one seen. -/
def walk (h : Hierarchy) (seen : List String) (start : Option ClassInfo) : List ClassInfo :=
  h.walkFor h.size seen start

/-- The proper superclasses of `c`, nearest first. -/
def ancestors (h : Hierarchy) (c : ClassInfo) : List ClassInfo :=
  h.walk [c.name] (h.superclass? c)

/-- Whether the chain of superclasses comes back to `c`. -/
def onCycle (h : Hierarchy) (c : ClassInfo) : Bool :=
  (h.walk [] (h.superclass? c)).any (·.name == c.name)

/-- Whether class `a` is `b` or has it as an ancestor. -/
def derivesFrom (h : Hierarchy) (a b : String) : Bool :=
  a == b ||
    match h.get? a with
    | none => false
    | some c => (h.ancestors c).any (·.name == b)

/-- Whether a value of type `s` may stand where type `t` is wanted. The type of a failed expression
fits everywhere and everything fits it. -/
def assignable (h : Hierarchy) (s t : Ty) : Bool :=
  match s, t with
  | .error, _ | _, .error => true
  | .object a, .object b => h.derivesFrom a b
  | s, t => s == t

/-- A class type without a class counts as failed. -/
def settled (h : Hierarchy) (t : Ty) : Ty :=
  match t with
  | .object c => if (h.get? c).isSome then t else .error
  | t => t

/-- Whether type `s` may stand for `t`, with undeclared classes counted as failed. -/
def fits (h : Hierarchy) (s t : Ty) : Bool := h.assignable (h.settled s) (h.settled t)

/-- The method of that name in the class or in the nearest ancestor that has one. -/
def findMethod? (h : Hierarchy) (className method : String) : Option MethodInfo :=
  (h.get? className).bind fun c =>
    match c.methods.get? method with
    | some m => some m
    | none => (h.ancestors c).findSome? (·.methods.get? method)

/-- The fields seen inside `c`, one scope a class, the farthest ancestor first. -/
def visibleFields (h : Hierarchy) (c : ClassInfo) : List (Scope Ty) :=
  c.fieldsBelow (h.ancestors c)

theorem findMethod?_eq (h : Hierarchy) (className method : String) :
    h.findMethod? className method =
      (h.get? className).bind fun c => (c :: h.ancestors c).findSome? (·.methods.get? method) := by
  unfold findMethod?
  congr 1
  funext c
  rw [List.findSome?_cons]
  cases c.methods.get? method <;> rfl

/-- Every class of every layer. -/
def members (h : Hierarchy) : List ClassInfo := h.layers.flatMap (·.values)

theorem length_members (h : Hierarchy) : h.members.length = h.size := by
  simp [members, Scope.size, Bindings.values, List.length_flatMap]

theorem mem_members_of_get? {h : Hierarchy} {name : String} {c : ClassInfo}
    (hc : h.get? name = some c) : c ∈ h.members := by
  obtain ⟨b, hb, hget⟩ := List.exists_of_findSome?_eq_some hc
  refine List.mem_flatMap.2 ⟨b, hb, ?_⟩
  have hmem : (name, c) ∈ b.entries := by
    unfold Bindings.get? at hget
    generalize b.entries = es at hget
    induction es with
    | nil => cases hget
    | cons e es ih =>
      obtain ⟨k, v⟩ := e
      by_cases hk : name = k
      · subst hk
        simp at hget
        simp [hget]
      · have hne : (name == k) = false := by simpa using hk
        simp only [List.lookup_cons, hne] at hget
        exact List.mem_cons_of_mem _ (ih hget)
  exact List.mem_map_of_mem (f := Prod.snd) hmem

theorem mem_members_of_superclass? {h : Hierarchy} {c d : ClassInfo}
    (hd : h.superclass? c = some d) : d ∈ h.members := by
  obtain ⟨s, _, hs⟩ := Option.bind_eq_some_iff.1 hd
  exact mem_members_of_get? hs

/-- The classes not yet seen; each step of a walk makes them fewer. -/
def unseen (h : Hierarchy) (seen : List String) : List ClassInfo :=
  h.members.filter fun c => c.name ∉ seen

theorem unseen_cons_lt {h : Hierarchy} {seen : List String} {c : ClassInfo} (hc : c ∈ h.members)
    (hs : c.name ∉ seen) : (h.unseen (c.name :: seen)).length < (h.unseen seen).length := by
  have hsub : h.unseen (c.name :: seen) = (h.unseen seen).filter fun d => d.name ≠ c.name := by
    simp [unseen, List.filter_filter]
  rw [hsub]
  apply Nat.lt_of_le_of_ne (List.length_filter_le _ _)
  intro heq
  have hall := List.length_filter_eq_length_iff.1 heq c (List.mem_filter.2 ⟨hc, by simpa using hs⟩)
  simp at hall

theorem walkFor_succ_some (h : Hierarchy) (fuel : Nat) (seen : List String) (c : ClassInfo) :
    h.walkFor (fuel + 1) seen (some c) =
      if c.name ∈ seen then [] else c :: h.walkFor fuel (c.name :: seen) (h.superclass? c) := by
  simp [walkFor]

/-- Fuel beyond the number of unseen classes changes nothing. -/
theorem walkFor_eq_of_le {h : Hierarchy} {seen : List String} {start : Option ClassInfo}
    (hstart : ∀ c, start = some c → c ∈ h.members) {m n : Nat}
    (hm : (h.unseen seen).length ≤ m) (hn : (h.unseen seen).length ≤ n) :
    h.walkFor m seen start = h.walkFor n seen start := by
  induction m generalizing n seen start with
  | zero =>
    cases start with
    | none => cases n <;> rfl
    | some c =>
      cases n with
      | zero => rfl
      | succ n =>
        have hc : c.name ∈ seen := by
          by_cases hs : c.name ∈ seen
          · exact hs
          · have := unseen_cons_lt (hstart c rfl) hs
            omega
        rw [walkFor_succ_some, if_pos hc]
        rfl
  | succ m ih =>
    cases start with
    | none => cases n <;> rfl
    | some c =>
      by_cases hs : c.name ∈ seen
      · rw [walkFor_succ_some, if_pos hs]
        cases n with
        | zero => rfl
        | succ n => rw [walkFor_succ_some, if_pos hs]
      · have hlt := unseen_cons_lt (hstart c rfl) hs
        cases n with
        | zero => omega
        | succ n =>
          rw [walkFor_succ_some, walkFor_succ_some, if_neg hs, if_neg hs]
          congr 1
          exact ih (fun d hd => mem_members_of_superclass? hd) (by omega) (by omega)

@[simp] theorem walk_none (h : Hierarchy) (seen : List String) : h.walk seen none = [] := by
  unfold walk
  cases h.size <;> rfl

/-- A walk meets its start and goes on from there, unless the start's name was seen. -/
theorem walk_some {h : Hierarchy} {seen : List String} {c : ClassInfo} (hc : c ∈ h.members) :
    h.walk seen (some c) =
      if c.name ∈ seen then [] else c :: h.walk (c.name :: seen) (h.superclass? c) := by
  have hbound (names : List String) : (h.unseen names).length ≤ h.size :=
    h.length_members ▸ List.length_filter_le _ _
  unfold walk
  rw [walkFor_eq_of_le (by simpa using hc) (hbound seen) (Nat.le_succ_of_le (hbound seen)),
    walkFor_succ_some]

end Hierarchy

end MiniJava
