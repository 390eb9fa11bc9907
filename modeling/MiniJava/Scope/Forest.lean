import MiniJava.Scope.Env

/-!
# Forests of scopes

Scopes that are numbered as they are made and may share the scopes around them: a name bound in one
is seen from every scope inside it.
-/

namespace MiniJava

/-- One scope of a forest: its own bindings and the numbers of the scopes around it, nearest
first. -/
structure Plot (α : Type) where
  bindings : Bindings α
  around : List Nat

structure Forest (α : Type) where
  plots : List (Plot α)

namespace Forest

variable {α : Type}

def empty : Forest α := ⟨[]⟩

/-- The own bindings of scope `t`. -/
def bindings (f : Forest α) (t : Nat) : Bindings α :=
  match f.plots[t]? with
  | some p => p.bindings
  | none => .empty

/-- The numbers of the scopes around scope `t`, nearest first. -/
def around (f : Forest α) (t : Nat) : List Nat :=
  match f.plots[t]? with
  | some p => p.around
  | none => []

/-- Scope `t` as it stands, with the layers around it. -/
def scope (f : Forest α) (t : Nat) : Scope α :=
  ⟨f.bindings t, (f.around t).map f.bindings⟩

/-- Adds an empty scope, inside `parent` if there is one. Its number is the old number of scopes. -/
def grow (f : Forest α) (parent : Option Nat) : Forest α :=
  let around := match parent with
    | none => []
    | some p => p :: f.around p
  ⟨f.plots ++ [⟨.empty, around⟩]⟩

def size (f : Forest α) : Nat := f.plots.length

/-- Binds a name in scope `t`. -/
def put (f : Forest α) (t : Nat) (name : String) (value : α) : Except DuplicateName (Forest α) :=
  ((f.bindings t).put name value).map fun b =>
    ⟨f.plots.modify t fun p => { p with bindings := b }⟩

theorem get?_scope (f : Forest α) (t : Nat) (name : String) :
    (f.scope t).get? name = (t :: f.around t).findSome? fun u => (f.bindings u).get? name := by
  simp only [scope, Scope.get?, Scope.layers, ← List.map_cons, List.findSome?_map]
  rfl

theorem plots_grow (f : Forest α) (parent : Option Nat) (t : Nat) :
    (f.grow parent).plots[t]? =
      if t = f.size then some ⟨.empty, parent.elim [] fun p => p :: f.around p⟩
      else f.plots[t]? := by
  unfold grow
  by_cases ht : t = f.size
  · subst ht
    cases parent <;> simp [size]
  · rw [if_neg ht]
    by_cases hlt : t < f.size
    · exact List.getElem?_append_left hlt
    · have hbeyond : f.plots.length < t := Nat.lt_of_le_of_ne (Nat.not_lt.1 hlt) (Ne.symm ht)
      rw [List.getElem?_eq_none, List.getElem?_eq_none]
      · exact Nat.le_of_lt hbeyond
      · simpa using Nat.succ_le_of_lt hbeyond

@[simp] theorem size_grow (f : Forest α) (parent : Option Nat) :
    (f.grow parent).size = f.size + 1 := by
  simp [grow, size]

/-- A new scope is as empty as one that does not exist. -/
@[simp] theorem bindings_grow (f : Forest α) (parent : Option Nat) (t : Nat) :
    (f.grow parent).bindings t = f.bindings t := by
  rw [bindings, bindings, plots_grow]
  by_cases ht : t = f.size
  · subst ht
    simp [size]
  · rw [if_neg ht]

theorem around_grow (f : Forest α) (parent : Option Nat) (t : Nat) :
    (f.grow parent).around t =
      if t = f.size then parent.elim [] fun p => p :: f.around p else f.around t := by
  rw [around, plots_grow]
  by_cases ht : t = f.size
  · rw [if_pos ht, if_pos ht]
  · rw [if_neg ht, if_neg ht, around]

section Put

variable {f g : Forest α} {t : Nat} {name : String} {value : α}

theorem put_of_mem (value : α) (h : name ∈ (f.bindings t).names) :
    f.put t name value = .error ⟨name⟩ := by
  rw [put, (Bindings.put_eq_error_iff _ _ value).2 h]
  rfl

theorem exists_put_of_not_mem (value : α) (h : name ∉ (f.bindings t).names) :
    ∃ g, f.put t name value = .ok g := by
  rw [put, Bindings.put, dif_neg h]
  exact ⟨_, rfl⟩

theorem exists_of_put (h : f.put t name value = .ok g) :
    ∃ b, (f.bindings t).put name value = .ok b ∧
      g = ⟨f.plots.modify t fun p => { p with bindings := b }⟩ := by
  unfold put at h
  cases hb : (f.bindings t).put name value with
  | error d =>
    rw [hb] at h
    cases h
  | ok b =>
    rw [hb] at h
    cases h
    exact ⟨b, rfl, rfl⟩

theorem size_of_put (h : f.put t name value = .ok g) : g.size = f.size := by
  obtain ⟨b, _, rfl⟩ := exists_of_put h
  exact List.length_modify ..

theorem around_of_put (h : f.put t name value = .ok g) (u : Nat) : g.around u = f.around u := by
  obtain ⟨b, _, rfl⟩ := exists_of_put h
  rw [around, around, List.getElem?_modify]
  cases f.plots[u]? with
  | none => rfl
  | some p => by_cases htu : t = u <;> simp [htu]

/-- A put changes the bindings of its own scope, if there is one. -/
theorem bindings_of_put (h : f.put t name value = .ok g) :
    ∃ b, (f.bindings t).put name value = .ok b ∧
      ∀ u, g.bindings u = if u = t ∧ t < f.size then b else f.bindings u := by
  obtain ⟨b, hb, rfl⟩ := exists_of_put h
  refine ⟨b, hb, fun u => ?_⟩
  by_cases hut : u = t
  · subst hut
    by_cases hu : u < f.size
    · have hplot : f.plots[u]? = some (f.plots[u]) := List.getElem?_eq_getElem hu
      rw [if_pos ⟨rfl, hu⟩]
      simp [bindings, hplot]
    · have hplot : f.plots[u]? = none := List.getElem?_eq_none (Nat.not_lt.1 hu)
      rw [if_neg (fun hboth => hu hboth.2)]
      simp [bindings, hplot]
  · have htu : ¬ t = u := fun he => hut he.symm
    simp [bindings, hut, htu]

/-- A name is bound behind all others of its scope, and the other scopes stay. -/
theorem entries_of_put (ht : t < f.size) (h : f.put t name value = .ok g) (u : Nat) :
    (g.bindings u).entries =
      (f.bindings u).entries ++ if u = t then [(name, value)] else [] := by
  obtain ⟨b, hb, hg⟩ := bindings_of_put h
  rw [hg]
  by_cases hut : u = t
  · rw [if_pos ⟨hut, ht⟩, if_pos hut, Bindings.entries_of_put hb, hut]
  · rw [if_neg (fun hboth => hut hboth.1), if_neg hut, List.append_nil]

end Put

end Forest

/-- An environment whose scopes are opened by their numbers in a forest, so that a name bound
later in an open scope is seen. -/
structure LiveEnv (α : Type) where
  forest : Forest α
  opened : List Nat

namespace LiveEnv

variable {α : Type}

def env (v : LiveEnv α) : Env α := ⟨v.opened.map v.forest.scope⟩

def enter (v : LiveEnv α) (t : Nat) : LiveEnv α := { v with opened := t :: v.opened }

def leave (v : LiveEnv α) : Except NoOpenScope (LiveEnv α) :=
  match v.opened with
  | [] => .error {}
  | _ :: rest => .ok { v with opened := rest }

def put (v : LiveEnv α) (t : Nat) (name : String) (value : α) :
    Except DuplicateName (LiveEnv α) :=
  (v.forest.put t name value).map fun forest => { v with forest }

end LiveEnv

end MiniJava
