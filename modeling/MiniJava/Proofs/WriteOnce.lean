import MiniJava.Proofs.Nearest
import MiniJava.Scope.Forest

/-!
# Names are bound once

A forest is judged by its past: scopes were made, each inside an earlier one or inside none, and
names were put into them, some in vain. All that a forest holds can be read off that past. A scope
holds the first put of each name into it, so a later one is refused; and a name means what the
nearest scope holds into which it was put, an absent value included.
-/

namespace MiniJava

namespace Forest

variable {α : Type}

/-- One thing that is done to a forest. -/
inductive Step (α : Type) where
  | grow (parent : Option Nat)
  | put (t : Nat) (name : String) (value : α)

/-- A refused put changes nothing. -/
def step (f : Forest α) : Step α → Forest α
  | .grow parent => f.grow parent
  | .put t name value =>
    match f.put t name value with
    | .ok g => g
    | .error _ => f

section Put

variable {f : Forest α} {t : Nat} {name : String}

lemma step_put_of_mem (h : name ∈ (f.bindings t).names) (value : α) :
    f.step (.put t name value) = f := by
  rw [step, put_of_mem value h]

lemma put_eq_step (h : name ∉ (f.bindings t).names) (value : α) :
    f.put t name value = .ok (f.step (.put t name value)) := by
  obtain ⟨g, hg⟩ := exists_put_of_not_mem value h
  rw [step, hg]

lemma size_step_put (f : Forest α) (t : Nat) (name : String) (value : α) :
    (f.step (.put t name value)).size = f.size := by
  by_cases h : name ∈ (f.bindings t).names
  · rw [step_put_of_mem h]
  · exact size_of_put (put_eq_step h value)

lemma around_step_put (f : Forest α) (t : Nat) (name : String) (value : α) (u : Nat) :
    (f.step (.put t name value)).around u = f.around u := by
  by_cases h : name ∈ (f.bindings t).names
  · rw [step_put_of_mem h]
  · exact around_of_put (put_eq_step h value) u

/-- A put adds a binding to its scope, unless the name is bound there. -/
lemma entries_step_put (ht : t < f.size) (u : Nat) (name : String) (value : α) :
    ((f.step (.put t name value)).bindings u).entries =
      (f.bindings u).entries ++
        if u = t ∧ name ∉ (f.bindings t).names then [(name, value)] else [] := by
  by_cases h : name ∈ (f.bindings t).names
  · simp [step_put_of_mem h, h]
  · simp [entries_of_put ht (put_eq_step h value), h]

end Put

/-- The forest that the steps make out of nothing. -/
def after (past : List (Step α)) : Forest α := past.foldl step .empty

/-! ### The past -/

/-- For each scope, in the order in which they were made, the one that it was made in. -/
def parents (past : List (Step α)) : List (Option Nat) :=
  past.filterMap fun
    | .grow parent => some parent
    | .put .. => none

/-- What was put into scope `t`, accepted or not. -/
def putsInto (past : List (Step α)) (t : Nat) : List (String × α) :=
  past.filterMap fun
    | .grow _ => none
    | .put u name value => if u = t then some (name, value) else none

/-- The name was put into scope `t`. -/
def Held (past : List (Step α)) (name : String) (t : Nat) : Prop :=
  name ∈ (putsInto past t).map Prod.fst

instance (past : List (Step α)) (name : String) (t : Nat) : Decidable (Held past name t) :=
  inferInstanceAs (Decidable (name ∈ (putsInto past t).map Prod.fst))

/-- The value that came with the first put of a name into scope `t`. -/
def firstPut (past : List (Step α)) (t : Nat) (name : String) : Option α :=
  ((putsInto past t).find? fun e => e.1 = name).map Prod.snd

/-- The scope `n` steps further out than scope `t`. -/
def climb (past : List (Step α)) : Nat → Nat → Option Nat
  | 0, t => some t
  | n + 1, t => (parents past)[t]?.join.bind (climb past n)

/-- No step is about a scope that was not made before. -/
inductive InOrder : List (Step α) → Prop
  | nil : InOrder []
  | grow {past : List (Step α)} {parent : Option Nat} (hpast : InOrder past)
      (hparent : ∀ p ∈ parent, p < (parents past).length) : InOrder (past ++ [.grow parent])
  | put {past : List (Step α)} {t : Nat} {name : String} {value : α} (hpast : InOrder past)
      (ht : t < (parents past).length) : InOrder (past ++ [.put t name value])

section Past

variable (past : List (Step α)) (parent : Option Nat) (t u : Nat) (name x : String) (value : α)

@[simp] lemma after_concat (s : Step α) : after (past ++ [s]) = (after past).step s := by
  simp [after]

@[simp] lemma parents_grow : parents (past ++ [.grow parent]) = parents past ++ [parent] := by
  simp [parents]

@[simp] lemma parents_put : parents (past ++ [.put t name value]) = parents past := by
  simp [parents]

@[simp] lemma putsInto_grow : putsInto (past ++ [.grow parent]) t = putsInto past t := by
  simp [putsInto]

lemma putsInto_put :
    putsInto (past ++ [.put t name value]) u =
      putsInto past u ++ if u = t then [(name, value)] else [] := by
  by_cases hut : u = t
  · simp [putsInto, hut]
  · simp [putsInto, hut, Ne.symm hut]

lemma held_put : Held (past ++ [.put t name value]) x u ↔ Held past x u ∨ u = t ∧ x = name := by
  rw [Held, putsInto_put, List.map_append, List.mem_append, Held]
  by_cases hut : u = t <;> simp [hut]

/-- A name is held if there is a first put of it. -/
lemma isSome_firstPut : (firstPut past t x).isSome = true ↔ Held past x t := by
  simp [firstPut, Held]

/-- Only the first put of a name counts. -/
lemma firstPut_put :
    firstPut (past ++ [.put t name value]) u x =
      (firstPut past u x).or (if u = t ∧ x = name then some value else none) := by
  have hlast : (List.find? (fun e => decide (e.1 = x)) (if u = t then [(name, value)] else [])).map
      Prod.snd = if u = t ∧ x = name then some value else none := by
    by_cases hut : u = t <;> by_cases hx : name = x <;> simp [hut, hx, eq_comm]
  rw [firstPut, putsInto_put, List.find?_append, Option.map_or, hlast, firstPut]

lemma climb_put (n : Nat) : climb (past ++ [.put t name value]) n u = climb past n u := by
  induction n generalizing u with
  | zero => rfl
  | succ n ih => simp only [climb, parents_put, funext ih]

end Past

/-! ### What is left of the past -/

variable {past : List (Step α)}

lemma size_after (past : List (Step α)) : (after past).size = (parents past).length := by
  induction past using List.reverseRecOn with
  | nil => rfl
  | append_singleton past s ih =>
    rw [after_concat]
    cases s with
    | grow parent => simp [step, ih]
    | put t name value => rw [size_step_put, parents_put, ih]

lemma InOrder.parent_lt (hpast : InOrder past) {p : Nat} (hp : some p ∈ parents past) :
    p < (parents past).length := by
  induction hpast with
  | nil => cases hp
  | grow _ hparent ih =>
    rw [parents_grow, List.length_append] at *
    rcases List.mem_append.1 hp with hold | hnew
    · exact Nat.lt_add_right _ (ih hold)
    · exact Nat.lt_add_right _ (hparent p (List.mem_singleton.1 hnew).symm)
  | put _ _ ih =>
    rw [parents_put] at hp ⊢
    exact ih hp

/-- A new scope is on nobody's way but its own. -/
lemma InOrder.climb_grow (hpast : InOrder past) (parent : Option Nat) {t : Nat}
    (ht : t ≠ (parents past).length) (n : Nat) :
    climb (past ++ [.grow parent]) n t = climb past n t := by
  induction n generalizing t with
  | zero => rfl
  | succ n ih =>
    have hsame : (parents (past ++ [.grow parent]))[t]? = (parents past)[t]? := by
      rw [parents_grow]
      rcases Nat.lt_or_gt_of_ne ht with hlt | hgt
      · exact List.getElem?_append_left hlt
      · rw [List.getElem?_eq_none hgt.le,
          List.getElem?_eq_none (by simpa using Nat.succ_le_of_lt hgt)]
    rw [climb, climb, hsame]
    cases hparent : (parents past)[t]?.join with
    | none => rfl
    | some p =>
      have hmem : some p ∈ parents past :=
        List.mem_of_getElem? (Option.join_eq_some_iff.1 hparent)
      exact ih (hpast.parent_lt hmem).ne

/-- The scopes around a scope are those that are met on the way out from it. -/
lemma InOrder.around_after (hpast : InOrder past) (t n : Nat) :
    (t :: (after past).around t)[n]? = climb past n t := by
  induction hpast generalizing t n with
  | nil => cases n <;> rfl
  | @grow past parent hpast hparent ih =>
    rw [after_concat, step, around_grow, size_after]
    by_cases ht : t = (parents past).length
    · subst ht
      cases n with
      | zero => rfl
      | succ n =>
        simp only [if_true, List.getElem?_cons_succ, climb, parents_grow,
          List.getElem?_concat_length, Option.join_some]
        cases parent with
        | none => rfl
        | some p => exact (ih p n).trans (hpast.climb_grow _ (hparent p rfl).ne n).symm
    · rw [if_neg ht, ih, hpast.climb_grow parent ht]
  | @put past u name value _ _ ih =>
    rw [climb_put, ← ih, after_concat, around_step_put]

lemma firsts_putsInto_put (past : List (Step α)) (t u : Nat) (name : String) (value : α) :
    firsts [] Prod.fst (putsInto (past ++ [.put t name value]) u) =
      firsts [] Prod.fst (putsInto past u) ++
        if u = t ∧ ¬ Held past name t then [(name, value)] else [] := by
  rw [putsInto_put, firsts_append]
  congr 1
  by_cases hut : u = t
  · subst hut
    have hlast : firsts ([] ++ (putsInto past u).map Prod.fst) Prod.fst [(name, value)] =
        if Held past name u then [] else [(name, value)] := by
      rw [firsts_cons, firsts_nil, firsts_nil]
      rfl
    rw [if_pos rfl, hlast]
    by_cases hheld : Held past name u <;> simp [hheld]
  · simp [hut, firsts_nil]

/-- A scope holds the first put of each name into it. -/
lemma InOrder.entries_after (hpast : InOrder past) (t : Nat) :
    ((after past).bindings t).entries = firsts [] Prod.fst (putsInto past t) := by
  induction hpast generalizing t with
  | nil => rfl
  | grow _ _ ih => simpa [step] using ih t
  | @put past u name value _ hu ih =>
    have hnames : name ∈ ((after past).bindings u).names ↔ Held past name u := by
      rw [Bindings.names, ih u]
      exact mem_append_firsts_iff [] (putsInto past u) name
    rw [after_concat, entries_step_put (by rwa [size_after]), ih, firsts_putsInto_put]
    simp only [hnames]

lemma InOrder.mem_names_after (hpast : InOrder past) (t : Nat) (x : String) :
    x ∈ ((after past).bindings t).names ↔ Held past x t := by
  rw [Bindings.names, hpast.entries_after]
  exact mem_append_firsts_iff [] (putsInto past t) x

lemma InOrder.get?_bindings_after (hpast : InOrder past) (t : Nat) (x : String) :
    ((after past).bindings t).get? x = firstPut past t x := by
  have hlookup : ((firsts [] Prod.fst (putsInto past t)).map fun e => (e.1, e.2)).lookup x = _ :=
    lookup_firsts Prod.snd [] (putsInto past t) x
  rw [Bindings.get?, hpast.entries_after]
  simpa [firstPut] using hlookup

/-- A name means what came with its first put into the nearest scope that holds it. -/
lemma InOrder.get?_scope_after_iff (hpast : InOrder past) (t : Nat) (x : String) (value : α) :
    ((after past).scope t).get? x = some value ↔
      ∃ n u, FirstUp (climb past) (Held past x) t n u ∧ firstPut past u x = some value := by
  have hsearch := FirstUp.findSome?_iff (f := fun u => firstPut past u x)
    (fun n d => (hpast.around_after t n).symm.trans)
    (fun n d hn => ⟨n, le_rfl, (hpast.around_after t n).trans hn⟩) value
  simp only [isSome_firstPut] at hsearch
  rw [get?_scope]
  simpa only [hpast.get?_bindings_after] using hsearch

lemma InOrder.firstPut_of_firstUp {past : List (Step (Option α))} (hpast : InOrder past)
    {t n u : Nat} {x : String} (hu : FirstUp (climb past) (Held past x) t n u) :
    firstPut past u x = some (((after past).scope t).value? x) := by
  obtain ⟨value, hvalue⟩ := Option.isSome_iff_exists.1 ((isSome_firstPut past u x).2 hu.has)
  have hget := (hpast.get?_scope_after_iff t x value).2 ⟨n, u, hu, hvalue⟩
  rw [hvalue, Scope.value?, hget, Option.join_some]

lemma InOrder.value?_eq_none {past : List (Step (Option α))} (hpast : InOrder past) {t : Nat}
    {x : String} (hnone : ¬ ∃ n u, FirstUp (climb past) (Held past x) t n u) :
    ((after past).scope t).value? x = none := by
  rw [Scope.value?]
  cases hget : ((after past).scope t).get? x with
  | none => rfl
  | some value =>
    obtain ⟨n, u, hu, _⟩ := (hpast.get?_scope_after_iff t x value).1 hget
    exact absurd ⟨n, u, hu⟩ hnone

/-- The nearest scope with a name had it before, unless it is the one that the name was put into. -/
lemma firstUp_of_put {t u w n : Nat} {x y : String} {value : α} (hw : ¬ (w = t ∧ y = x))
    (hnear : FirstUp (climb (past ++ [.put t x value])) (Held (past ++ [.put t x value]) y) u n w) :
    FirstUp (climb past) (Held past y) u n w where
  met := (climb_put past t u x value n).symm.trans hnear.met
  has := ((held_put past t w x y value).1 hnear.has).resolve_right hw
  least k e hk he :=
    hnear.least k e ((climb_put past t u x value k).trans hk)
      ((held_put past t e x y value).2 (.inl he))

/-- Where the scope of a new binding is not the nearest with that name, nothing changes. -/
lemma InOrder.get?_scope_after_put {t u : Nat} {x y : String} {value : α}
    (hpast : InOrder past) (ht : t < (parents past).length)
    (hfar : ¬ (y = x ∧ ∃ n, FirstUp (climb (past ++ [.put t x value]))
      (Held (past ++ [.put t x value]) x) u n t)) :
    ((after (past ++ [.put t x value])).scope u).get? y = ((after past).scope u).get? y := by
  have hother : ∀ n w,
      FirstUp (climb (past ++ [.put t x value])) (Held (past ++ [.put t x value]) y) u n w →
      ¬ (w = t ∧ y = x) := by
    rintro n w hw ⟨rfl, rfl⟩
    exact hfar ⟨rfl, n, hw⟩
  have hsame : ∀ w, ¬ (w = t ∧ y = x) →
      firstPut (past ++ [.put t x value]) w y = firstPut past w y := by
    intro w hw
    rw [firstPut_put, if_neg hw, Option.or_none]
  apply Option.ext
  intro v
  rw [(hpast.put ht).get?_scope_after_iff, hpast.get?_scope_after_iff]
  constructor
  · rintro ⟨n, w, hw, hv⟩
    exact ⟨n, w, firstUp_of_put (hother n w hw) hw, (hsame w (hother n w hw)).symm.trans hv⟩
  · rintro ⟨n, w, hw, hv⟩
    -- the nearest scope now is one that was the nearest before
    obtain ⟨m, d, hd⟩ := FirstUp.exists_of_met ((climb_put past t u x value n).trans hw.met)
      ((held_put past t w x y value).2 (.inl hw.has))
    obtain rfl := (firstUp_of_put (hother m d hd) hd).unique hw
    exact ⟨m, d, hd, (hsame d (hother m d hd)).trans hv⟩

/-- In every forest that was made step by step, each step about scopes made before: a put is refused
if and only if the name was put into that scope before, and then nothing changes; a scope holds the
first put of each name into it, in order; it says of a name what came with the first put into the
nearest scope, on the way out from it, into which the name was put, and nothing if there is no such
scope. A put that succeeds changes what is said of its own name only, and only where its scope is
now the nearest with that name. -/
theorem names_bound_once {past : List (Step (Option α))} (hpast : InOrder past) :
    (∀ t < (after past).size, ∀ x value,
      (Held past x t → (after past).put t x value = .error ⟨x⟩ ∧
        after (past ++ [.put t x value]) = after past) ∧
      (¬ Held past x t → ∃ g, (after past).put t x value = .ok g ∧
        after (past ++ [.put t x value]) = g ∧
        ∀ u y, (g.scope u).value? y ≠ ((after past).scope u).value? y →
          y = x ∧ ∃ n, FirstUp (climb (past ++ [.put t x value]))
            (Held (past ++ [.put t x value]) x) u n t)) ∧
    (∀ t, ((after past).bindings t).entries = firsts [] Prod.fst (putsInto past t)) ∧
    (∀ t x n u, FirstUp (climb past) (Held past x) t n u →
      firstPut past u x = some (((after past).scope t).value? x)) ∧
    (∀ t x, (¬ ∃ n u, FirstUp (climb past) (Held past x) t n u) →
      ((after past).scope t).value? x = none) := by
  refine ⟨fun t ht x value => ⟨fun hheld => ?_, fun hheld => ?_⟩, hpast.entries_after,
    fun _ _ _ _ => hpast.firstPut_of_firstUp, fun _ _ => hpast.value?_eq_none⟩
  · have hmem := (hpast.mem_names_after t x).2 hheld
    exact ⟨put_of_mem value hmem, by rw [after_concat, step_put_of_mem hmem]⟩
  · have hput := put_eq_step (mt (hpast.mem_names_after t x).1 hheld) value
    rw [← after_concat] at hput
    refine ⟨_, hput, rfl, fun u y hchange => ?_⟩
    by_contra hfar
    rw [size_after] at ht
    apply hchange
    rw [Scope.value?, hpast.get?_scope_after_put ht hfar, Scope.value?]

/-- A scope inside another, and three puts of one name: into the outer scope, an absent value into
the inner one, and into the outer one again. -/
def nesting : List (Step (Option Ty)) :=
  [.grow none, .grow (some 0), .put 0 "x" (some .int), .put 1 "x" none, .put 0 "x" (some .boolean)]

theorem names_bound_once_nesting :
    InOrder nesting ∧ Held nesting "x" 0 ∧ ¬ Held nesting "y" 1 ∧
      (after nesting).put 0 "x" none = .error ⟨"x"⟩ ∧
      ((after nesting).bindings 0).entries = [("x", some .int)] ∧
      ((after nesting).scope 0).value? "x" = some .int ∧
      ((after nesting).scope 1).value? "x" = none ∧
      ∃ g, (after nesting).put 1 "y" (some .int) = .ok g ∧
        (g.scope 0).value? "y" = ((after nesting).scope 0).value? "y" := by
  have hpast : InOrder nesting :=
    (((@InOrder.grow _ _ (some 0) (@InOrder.grow _ _ none .nil nofun) (by simp [parents])).put
      (by decide)).put (by decide)).put (by decide)
  obtain ⟨hput, hentries, hnear, _⟩ := names_bound_once hpast
  have houter := hnear 0 "x" 0 0 (.of_forall_lt rfl (by decide) nofun)
  have hinner := hnear 1 "x" 0 1 (.of_forall_lt rfl (by decide) nofun)
  obtain ⟨g, hg, _, hlocal⟩ := (hput 1 (by decide) "y" (some .int)).2 (by decide)
  refine ⟨hpast, by decide, by decide, ((hput 0 (by decide) "x" none).1 (by decide)).1,
    hentries 0, (Option.some.inj houter).symm, (Option.some.inj hinner).symm, g, hg, ?_⟩
  by_contra hchange
  obtain ⟨_, n, hn⟩ := hlocal 0 "y" hchange
  have hmet := (climb_put nesting 1 0 "y" (some .int) n).symm.trans hn.met
  cases n with
  | zero => cases hmet
  | succ n => cases hmet

end Forest

end MiniJava
