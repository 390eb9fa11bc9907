import MiniJava.Proofs.WriteOnce

/-!
# Open scopes as one chain

The open scopes, each with the layers around it, are as good as a single scope with all these layers
one behind the other. The one difference is an absent value: looking from scope to scope passes over
it, while in a single scope it hides all that follows. It makes no difference that scopes are opened
twice, share layers, or get new names while they are open.
-/

namespace MiniJava

lemma findSome?_congr {α β : Type} {f g : α → Option β} {l : List α} (hfg : ∀ a ∈ l, f a = g a) :
    l.findSome? f = l.findSome? g := by
  induction l with
  | nil => rfl
  | cons a l ih =>
    obtain ⟨ha, hl⟩ := List.forall_mem_cons.1 hfg
    rw [List.findSome?_cons, List.findSome?_cons, ha, ih hl]

namespace Env

variable {α : Type}

/-- The layers of all open scopes as one scope. -/
def chained (env : Env α) : Scope α :=
  match env.scopes.flatMap Scope.layers with
  | [] => .empty
  | own :: outer => ⟨own, outer⟩

lemma get?_chained (env : Env α) (x : String) :
    env.chained.get? x = env.scopes.findSome? (·.get? x) := by
  have hlayers : env.chained.get? x =
      (env.scopes.flatMap Scope.layers).findSome? (·.get? x) := by
    unfold chained
    cases env.scopes.flatMap Scope.layers <;> rfl
  rw [hlayers]
  induction env.scopes with
  | nil => rfl
  | cons s scopes ih =>
    rw [List.flatMap_cons, List.findSome?_append, ih, List.findSome?_cons, Scope.get?]
    cases s.layers.findSome? (·.get? x) <;> rfl

/-- The two searches agree on a name if no open scope has an absent value for it. -/
lemma resolveBy_eq_chained {env : Env (Option α)} {x : String}
    (hx : ∀ s ∈ env.scopes, s.get? x ≠ some none) :
    env.resolveBy id x = env.chained.value? x := by
  rw [Scope.value?, get?_chained, resolveBy]
  obtain ⟨scopes⟩ := env
  induction scopes with
  | nil => rfl
  | cons s scopes ih =>
    obtain ⟨hs, hscopes⟩ := List.forall_mem_cons.1 hx
    rw [List.findSome?_cons, List.findSome?_cons]
    cases hget : s.get? x with
    | none => exact ih hscopes
    | some value =>
      cases value with
      | none => exact absurd hget hs
      | some value => rfl

end Env

namespace Forest

variable {α : Type} {f : Forest α}

/-- A put changes nothing but the answer of its own scope for a name that is new there. -/
lemma get?_step_put {t u : Nat} {name x : String}
    (hother : ¬ (u = t ∧ x = name ∧ name ∉ (f.bindings t).names)) (value : α) :
    ((f.step (.put t name value)).bindings u).get? x = (f.bindings u).get? x := by
  by_cases hname : name ∈ (f.bindings t).names
  · rw [step_put_of_mem hname]
  · obtain ⟨b, hb, hg⟩ := bindings_of_put (put_eq_step hname value)
    rw [hg]
    by_cases hut : u = t ∧ t < f.size
    · have hx : x ≠ name := fun hx => hother ⟨hut.1, hx, hname⟩
      rw [if_pos hut, Bindings.get?_of_put hb, if_neg hx, hut.1]
    · rw [if_neg hut]

/-- No scope has an absent value. -/
def Filled (f : Forest (Option α)) : Prop :=
  ∀ t x, (f.bindings t).get? x ≠ some none

lemma Filled.step_put {f : Forest (Option α)} (hf : f.Filled) (t : Nat) (name : String)
    {value : Option α} (hvalue : value ≠ none) : (f.step (.put t name value)).Filled := by
  intro u x
  by_cases hnew : u = t ∧ x = name ∧ name ∉ (f.bindings t).names
  · obtain ⟨rfl, rfl, hname⟩ := hnew
    obtain ⟨b, hb, hg⟩ := bindings_of_put (put_eq_step hname value)
    rw [hg]
    by_cases hu : u < f.size
    · rw [if_pos ⟨rfl, hu⟩, Bindings.get?_of_put hb, if_pos rfl]
      exact fun heq => hvalue (Option.some.inj heq)
    · rw [if_neg (fun hboth => hu hboth.2)]
      exact hf u x
  · rw [get?_step_put hnew]
    exact hf u x

lemma Filled.get?_scope {f : Forest (Option α)} (hf : f.Filled) (t : Nat) (x : String) :
    (f.scope t).get? x ≠ some none := by
  rw [Forest.get?_scope]
  intro hnone
  obtain ⟨u, _, hu⟩ := List.exists_of_findSome?_eq_some hnone
  exact hf u x hu

end Forest

namespace LiveEnv

variable {α : Type}

/-- One thing that is done to an environment. -/
inductive Step (α : Type) where
  | enter (t : Nat)
  | leave
  | put (t : Nat) (name : String) (value : α)

/-- What is refused changes nothing. -/
def step (v : LiveEnv α) : Step α → LiveEnv α
  | .enter t => v.enter t
  | .leave =>
    match v.leave with
    | .ok w => w
    | .error _ => v
  | .put t name value =>
    match v.put t name value with
    | .ok w => w
    | .error _ => v

def after (v : LiveEnv α) (steps : List (Step α)) : LiveEnv α := steps.foldl step v

lemma after_cons (v : LiveEnv α) (s : Step α) (steps : List (Step α)) :
    v.after (s :: steps) = (v.step s).after steps := rfl

lemma after_append (v : LiveEnv α) (steps more : List (Step α)) :
    v.after (steps ++ more) = (v.after steps).after more := List.foldl_append

lemma step_put (v : LiveEnv α) (t : Nat) (name : String) (value : α) :
    v.step (.put t name value) = { v with forest := v.forest.step (.put t name value) } := by
  simp only [step, put, Forest.step]
  cases v.forest.put t name value <;> rfl

lemma step_leave {v : LiveEnv α} {t : Nat} {rest : List Nat} (hv : v.opened = t :: rest) :
    v.step .leave = { v with opened := rest } := by
  simp only [step, leave, hv]

lemma forest_step_leave (v : LiveEnv α) : (v.step .leave).forest = v.forest := by
  simp only [step, leave]
  cases v.opened <;> rfl

/-- The numbers of the open scopes and of those around them. -/
def reachable (v : LiveEnv α) : List Nat := v.opened.flatMap fun t => t :: v.forest.around t

/-! ### What the steps leave as it was -/

lemma around_after (v : LiveEnv α) (steps : List (Step α)) (t : Nat) :
    (v.after steps).forest.around t = v.forest.around t := by
  induction steps generalizing v with
  | nil => rfl
  | cons s steps ih =>
    rw [after_cons, ih]
    cases s with
    | enter u => rfl
    | leave => rw [forest_step_leave]
    | put u name value => rw [step_put, Forest.around_step_put]

/-- A name keeps its meaning in a scope unless it is put there and is new. -/
lemma get?_bindings_after (v : LiveEnv α) {steps : List (Step α)} {t : Nat} {x : String}
    (hold : ∀ value, .put t x value ∈ steps → x ∈ (v.forest.bindings t).names) :
    ((v.after steps).forest.bindings t).get? x = (v.forest.bindings t).get? x := by
  induction steps generalizing v with
  | nil => rfl
  | cons s steps ih =>
    have hstep : ((v.step s).forest.bindings t).get? x = (v.forest.bindings t).get? x := by
      cases s with
      | enter u => rfl
      | leave => rw [forest_step_leave]
      | put u name value =>
        rw [step_put]
        apply Forest.get?_step_put
        rintro ⟨rfl, rfl, hnew⟩
        exact hnew (hold value List.mem_cons_self)
    rw [after_cons, ih, hstep]
    intro value hvalue
    rw [← Bindings.get?_isSome_iff, hstep, Bindings.get?_isSome_iff]
    exact hold value (List.mem_cons_of_mem _ hvalue)

/-- Steps that close what they open and nothing else. -/
inductive Nested : List (Step α) → Prop
  | nil : Nested []
  | put {t : Nat} {name : String} {value : α} {rest : List (Step α)} (hrest : Nested rest) :
      Nested (.put t name value :: rest)
  | scope {t : Nat} {inner rest : List (Step α)} (hinner : Nested inner) (hrest : Nested rest) :
      Nested (.enter t :: inner ++ .leave :: rest)

lemma Nested.opened_after {steps : List (Step α)} (hsteps : Nested steps) (v : LiveEnv α) :
    (v.after steps).opened = v.opened := by
  induction hsteps generalizing v with
  | nil => rfl
  | put _ ih => rw [after_cons, ih, step_put]
  | @scope t inner rest _ _ ihinner ihrest =>
    have hinner : ((v.step (.enter t)).after inner).opened = t :: v.opened := ihinner _
    rw [List.cons_append, after_cons, after_append, after_cons, ihrest, step_leave hinner]

/-- Where the same scopes are open, only a new name in one of them or around them can change an
answer. -/
lemma resolveBy_after (v : LiveEnv (Option α)) {steps : List (Step (Option α))}
    (hopened : (v.after steps).opened = v.opened) {x : String}
    (hold : ∀ t ∈ v.reachable, ∀ value, .put t x value ∈ steps →
      x ∈ (v.forest.bindings t).names) :
    (v.after steps).env.resolveBy id x = v.env.resolveBy id x := by
  have hscope : ∀ t ∈ v.opened,
      ((v.after steps).forest.scope t).get? x = (v.forest.scope t).get? x := by
    intro t ht
    rw [Forest.get?_scope, Forest.get?_scope, around_after]
    apply findSome?_congr
    intro u hu
    exact v.get?_bindings_after (hold u (List.mem_flatMap.2 ⟨t, ht, hu⟩))
  simp only [Env.resolveBy, env, hopened, List.findSome?_map]
  apply findSome?_congr
  intro t ht
  simp only [Function.comp_apply, hscope t ht]

lemma filled_after {v : LiveEnv (Option α)} (hv : v.forest.Filled) {steps : List (Step (Option α))}
    (hsteps : ∀ t x, .put t x none ∉ steps) : (v.after steps).forest.Filled := by
  induction steps generalizing v with
  | nil => exact hv
  | cons s steps ih =>
    refine ih ?_ fun t x hmem => hsteps t x (List.mem_cons_of_mem _ hmem)
    cases s with
    | enter t => exact hv
    | leave =>
      rw [forest_step_leave]
      exact hv
    | put t name value =>
      rw [step_put]
      apply hv.step_put
      rintro rfl
      exact hsteps t name List.mem_cons_self

/-- Searching scope by scope differs from searching the one chain only where an open scope comes to
an absent value. -/
lemma resolveBy_eq_chained {v : LiveEnv (Option α)} {x : String}
    (hx : ∀ t ∈ v.opened, (v.forest.scope t).get? x ≠ some none) :
    v.env.resolveBy id x = v.env.chained.value? x := by
  apply Env.resolveBy_eq_chained
  intro s hs
  obtain ⟨t, ht, rfl⟩ := List.mem_map.1 hs
  exact hx t ht

lemma resolveBy_enter (v : LiveEnv (Option α)) {t : Nat} {x : String}
    (hx : ∀ b ∈ (v.forest.scope t).layers, x ∉ b.names) :
    (v.enter t).env.resolveBy id x = v.env.resolveBy id x := by
  have hnone : (v.forest.scope t).get? x = none := by
    rw [Scope.get?, List.findSome?_eq_none_iff]
    intro b hb
    rw [← Option.not_isSome_iff_eq_none, Bindings.get?_isSome_iff]
    exact hx b hb
  simp only [Env.resolveBy, env, enter, List.map_cons, List.findSome?_cons, hnone, Option.bind_none]

/-- From any open scopes, whatever is opened, closed and put, a name means what the one chain of all
layers says of it, as long as no value is absent. So closing the scope that was opened last brings
back every answer, except for a name that was put meanwhile, and is new, in a scope still open or
around one; and opening a scope changes no answer for a name that none of its layers binds. With
absent values, the two can differ only for a name for which some open scope comes to one. -/
theorem open_scopes_chained (v : LiveEnv (Option α)) :
    (v.forest.Filled → ∀ steps, (∀ t x, .put t x none ∉ steps) → ∀ x,
      (v.after steps).env.resolveBy id x = (v.after steps).env.chained.value? x) ∧
    (∀ t inner, Nested inner →
      (v.after (.enter t :: inner ++ [.leave])).opened = v.opened ∧
      ∀ x, (v.after (.enter t :: inner ++ [.leave])).env.resolveBy id x ≠ v.env.resolveBy id x →
        ∃ u ∈ v.reachable, ∃ value, .put u x value ∈ inner ∧ x ∉ (v.forest.bindings u).names) ∧
    (∀ t x, (∀ b ∈ (v.forest.scope t).layers, x ∉ b.names) →
      (v.enter t).env.resolveBy id x = v.env.resolveBy id x) ∧
    (∀ steps x, (v.after steps).env.resolveBy id x ≠ (v.after steps).env.chained.value? x →
      ∃ t ∈ (v.after steps).opened, ((v.after steps).forest.scope t).get? x = some none) := by
  refine ⟨?_, ?_, fun _ _ => v.resolveBy_enter, ?_⟩
  · intro hv steps hsteps x
    exact resolveBy_eq_chained fun t _ => (filled_after hv hsteps).get?_scope t x
  · intro t inner hinner
    have hopened := (@Nested.scope _ t _ _ hinner .nil).opened_after v
    refine ⟨hopened, fun x hchange => ?_⟩
    by_contra hold
    apply hchange
    apply v.resolveBy_after hopened
    intro u hu value hput
    by_contra hnew
    exact hold ⟨u, hu, value, by simpa using hput, hnew⟩
  · intro steps x hdiff
    by_contra hnone
    apply hdiff
    apply resolveBy_eq_chained
    intro t ht habsent
    exact hnone ⟨t, ht, habsent⟩

/-- Two empty scopes, one inside the other, and none open. -/
def rooms : LiveEnv (Option Ty) := ⟨(Forest.empty.grow none).grow (some 0), []⟩

/-- A name of the outer scope that is bound anew in the inner one while both are open, and that
means the outer one again afterwards; and the same with an absent value in the inner scope, which
one of the two searches passes over. -/
theorem open_scopes_chained_rooms :
    let inside : List (Step (Option Ty)) := [.put 0 "x" (some .int), .enter 0]
    let anew : List (Step (Option Ty)) := [.put 1 "x" (some .boolean)]
    let absent : List (Step (Option Ty)) := inside ++ [.put 1 "x" none, .enter 1]
    rooms.forest.Filled ∧ Nested anew ∧
      (rooms.after (inside ++ .enter 1 :: anew)).env.chained.value? "x" = some .boolean ∧
      (rooms.after (inside ++ .enter 1 :: anew)).env.resolveBy id "x" = some .boolean ∧
      ((rooms.after inside).after (.enter 1 :: anew ++ [.leave])).env.resolveBy id "x" =
        (rooms.after inside).env.resolveBy id "x" ∧
      ((rooms.after inside).enter 1).env.resolveBy id "y" =
        (rooms.after inside).env.resolveBy id "y" ∧
      (rooms.after absent).env.resolveBy id "x" = some .int ∧
      (rooms.after absent).env.chained.value? "x" = none ∧
      ∃ t ∈ (rooms.after absent).opened,
        ((rooms.after absent).forest.scope t).get? "x" = some none := by
  intro inside anew absent
  have hfilled : rooms.forest.Filled := by
    intro t x
    rw [rooms, Forest.bindings_grow, Forest.bindings_grow]
    nofun
  have hanew : Nested anew := .put .nil
  obtain ⟨hchain, _, _, habsent⟩ := open_scopes_chained rooms
  obtain ⟨_, hclose, hopen, _⟩ := open_scopes_chained (rooms.after inside)
  have hboth := hchain hfilled (inside ++ .enter 1 :: anew) (by simp [inside, anew]) "x"
  have hvalue : (rooms.after (inside ++ .enter 1 :: anew)).env.chained.value? "x" = some .boolean :=
    rfl
  refine ⟨hfilled, hanew, hvalue, hboth.trans hvalue, ?_, hopen 1 "y" (by decide), rfl, rfl,
    habsent absent "x" (by decide)⟩
  by_contra hchange
  obtain ⟨u, hu, value, hput, _⟩ := (hclose 1 anew hanew).2 "x" hchange
  have hreach : (rooms.after inside).reachable = [0] := rfl
  rw [hreach, List.mem_singleton] at hu
  simp [anew, hu] at hput

end LiveEnv

end MiniJava
