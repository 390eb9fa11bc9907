import MiniJava.Text.Joined

/-!
# Write-once bindings

Names bound to values, in the order in which they were bound. A name is bound once and for all: a
second `put` of it is refused and changes nothing.
-/

namespace MiniJava

/-- The refusal to bind a name a second time. -/
structure DuplicateName where
  name : String
deriving DecidableEq, Repr

def DuplicateName.message (d : DuplicateName) : String :=
  "duplicate name '" ++ d.name ++ "'"

structure Bindings (α : Type) where
  entries : List (String × α)
  nodup : (entries.map Prod.fst).Nodup := by decide

namespace Bindings

variable {α β : Type}

def empty : Bindings α := ⟨[], List.nodup_nil⟩

instance : Inhabited (Bindings α) := ⟨empty⟩

def names (b : Bindings α) : List String := b.entries.map Prod.fst

def values (b : Bindings α) : List α := b.entries.map Prod.snd

def size (b : Bindings α) : Nat := b.entries.length

def get? (b : Bindings α) (name : String) : Option α := b.entries.lookup name

def contains (b : Bindings α) (name : String) : Bool := b.names.contains name

theorem nodup_entries_append (b : Bindings α) (name : String) (value : α) (h : name ∉ b.names) :
    ((b.entries ++ [(name, value)]).map Prod.fst).Nodup := by
  simp only [List.map_append, List.map_cons, List.map_nil]
  refine List.nodup_append.2 ⟨b.nodup, by simp, ?_⟩
  intro x hx y hy he
  obtain rfl : y = name := by simpa using hy
  exact h (he ▸ hx)

/-- Binds a new name behind all others. -/
def put (b : Bindings α) (name : String) (value : α) : Except DuplicateName (Bindings α) :=
  if h : name ∈ b.names then .error ⟨name⟩
  else .ok ⟨b.entries ++ [(name, value)], b.nodup_entries_append name value h⟩

/-- The same names with other values. -/
def mapValues (f : α → β) (b : Bindings α) : Bindings β :=
  ⟨b.entries.map fun e => (e.1, f e.2), by simpa [Function.comp_def] using b.nodup⟩

/-- The bindings in braces, each value written by `text`. -/
def render (text : α → String) (b : Bindings α) : String :=
  "\x7b" ++ Text.joined ", " (b.entries.map fun e => e.1 ++ ": " ++ text e.2) ++ "\x7d"

@[ext] theorem ext {b c : Bindings α} (h : b.entries = c.entries) : b = c := by
  cases b; cases c; simp_all

@[simp] theorem entries_empty : (empty : Bindings α).entries = [] := rfl

@[simp] theorem get?_empty (name : String) : (empty : Bindings α).get? name = none := rfl

theorem get?_isSome_iff (b : Bindings α) (name : String) :
    (b.get? name).isSome = true ↔ name ∈ b.names := by
  unfold get? names
  induction b.entries with
  | nil => simp
  | cons e es ih =>
    obtain ⟨k, v⟩ := e
    by_cases h : name = k
    · simp [h]
    · have hk : (name == k) = false := by simpa using h
      simp [List.lookup_cons, hk, ih, h]

theorem put_eq_error_iff (b : Bindings α) (name : String) (value : α) :
    b.put name value = .error ⟨name⟩ ↔ name ∈ b.names := by
  unfold put
  split <;> simp_all

theorem put_empty (name : String) (value : α) :
    empty.put name value = .ok ⟨[(name, value)], by simp⟩ := by
  have hfresh : name ∉ (empty : Bindings α).names := List.not_mem_nil
  rw [put, dif_neg hfresh]
  rfl

theorem entries_of_put {b c : Bindings α} {name : String} {value : α}
    (h : b.put name value = .ok c) : c.entries = b.entries ++ [(name, value)] := by
  unfold put at h
  split at h
  · cases h
  · cases h; rfl

/-- A successful `put` changes the answer for its own name only. -/
theorem get?_of_put {b c : Bindings α} {name : String} {value : α} (h : b.put name value = .ok c)
    (x : String) : c.get? x = if x = name then some value else b.get? x := by
  have hnew : name ∉ b.names := fun hm => by
    rw [(put_eq_error_iff b name value).2 hm] at h
    cases h
  have hnone : b.get? name = none := by
    cases hg : b.get? name with
    | none => rfl
    | some v => exact absurd ((get?_isSome_iff b name).1 (by simp [hg])) hnew
  have happ : c.get? x = (b.get? x).or (List.lookup x [(name, value)]) := by
    simp only [get?, entries_of_put h, List.lookup_append]
  rw [happ]
  by_cases hx : x = name
  · subst hx; simp [hnone]
  · have hk : (x == name) = false := by simpa using hx
    simp [List.lookup_cons, hk, hx]

end Bindings

end MiniJava
