import MiniJava.Scope.Bindings

/-!
# Scopes

A scope is a layer of bindings with the layers around it. A name means what the nearest layer that
holds it says; new names go into the innermost layer.
-/

namespace MiniJava

structure Scope (α : Type) where
  own : Bindings α
  outer : List (Bindings α) := []

namespace Scope

variable {α β : Type}

def empty : Scope α := ⟨.empty, []⟩

instance : Inhabited (Scope α) := ⟨empty⟩

/-- The scope's own layer and the layers around it, nearest first. -/
def layers (s : Scope α) : List (Bindings α) := s.own :: s.outer

def get? (s : Scope α) (name : String) : Option α := s.layers.findSome? (·.get? name)

/-- What a scope says of a name. An absent value says nothing, but it hides the layers around. -/
def value? (s : Scope (Option α)) (name : String) : Option α := (s.get? name).join

/-- Binds a name in the own layer; a name of an outer layer may be bound anew. -/
def put (s : Scope α) (name : String) (value : α) : Except DuplicateName (Scope α) :=
  (s.own.put name value).map fun own => { s with own }

/-- An empty layer inside `s`. -/
def nested (s : Scope α) : Scope α := ⟨.empty, s.layers⟩

def mapValues (f : α → β) (s : Scope α) : Scope β :=
  ⟨s.own.mapValues f, s.outer.map (·.mapValues f)⟩

/-- The number of bindings in all layers. -/
def size (s : Scope α) : Nat := (s.layers.flatMap (·.entries)).length

theorem get?_mk (own : Bindings α) (outer : List (Bindings α)) (name : String) :
    (Scope.mk own outer).get? name = (own.get? name).or (outer.findSome? (·.get? name)) := by
  simp only [get?, layers, List.findSome?_cons]
  cases own.get? name <;> rfl

@[simp] theorem get?_nested (s : Scope α) (name : String) : s.nested.get? name = s.get? name := by
  simp [nested, get?, layers, List.findSome?_cons]

end Scope

end MiniJava
