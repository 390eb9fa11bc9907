import MiniJava.Scope.Basic

/-!
# Environments

The scopes open at one point, innermost first. A name is resolved from the innermost scope outwards.
-/

namespace MiniJava

structure Env (α : Type) where
  scopes : List (Scope α)

/-- The refusal to close a scope where none is open. -/
structure NoOpenScope where
deriving DecidableEq, Repr

def NoOpenScope.message (_ : NoOpenScope) : String := "pop from empty list"

namespace Env

variable {α β : Type}

def empty : Env α := ⟨[]⟩

instance : Inhabited (Env α) := ⟨empty⟩

def depth (env : Env α) : Nat := env.scopes.length

def top? (env : Env α) : Option (Scope α) := env.scopes.head?

def enter (env : Env α) (s : Scope α) : Env α := ⟨s :: env.scopes⟩

/-- Opens the scopes one after another, so that the last is the innermost. -/
def enterAll (env : Env α) (ss : List (Scope α)) : Env α := ss.foldl enter env

def leave (env : Env α) : Except NoOpenScope (Env α) :=
  match env.scopes with
  | [] => .error {}
  | _ :: rest => .ok ⟨rest⟩

/-- Closes `n` scopes. -/
def leaveMany (env : Env α) : Nat → Except NoOpenScope (Env α)
  | 0 => .ok env
  | n + 1 => do (← env.leave).leaveMany n

/-- What the innermost scope says of a name. -/
def getTop? (env : Env α) (name : String) : Option α := env.top?.bind (·.get? name)

/-- The first answer that `select` keeps, from the innermost scope outwards. -/
def resolveBy (select : α → Option β) (env : Env α) (name : String) : Option β :=
  env.scopes.findSome? fun s => (s.get? name).bind select

def resolve (env : Env α) (name : String) : Option α := env.resolveBy some name

@[simp] theorem resolve_empty (name : String) : (empty : Env α).resolve name = none := rfl

theorem resolve_enter (env : Env α) (s : Scope α) (name : String) :
    (env.enter s).resolve name = (s.get? name).or (env.resolve name) := by
  simp only [resolve, resolveBy, enter, List.findSome?_cons]
  cases s.get? name <;> rfl

@[simp] theorem leave_enter (env : Env α) (s : Scope α) : (env.enter s).leave = .ok env := rfl

theorem leave_eq_error_iff (env : Env α) : env.leave = .error {} ↔ env.depth = 0 := by
  unfold leave depth
  split <;> simp_all

theorem scopes_enterAll (env : Env α) (ss : List (Scope α)) :
    (env.enterAll ss).scopes = ss.reverse ++ env.scopes := by
  unfold enterAll
  induction ss generalizing env with
  | nil => simp
  | cons s ss ih => simp [ih, enter]

/-- As many scopes as are open can be closed, and none is open then. -/
theorem leaveMany_depth (env : Env α) : env.leaveMany env.depth = .ok empty := by
  obtain ⟨scopes⟩ := env
  unfold depth
  induction scopes with
  | nil => rfl
  | cons s ss ih => simpa [leaveMany, leave, bind, Except.bind] using ih

end Env

end MiniJava
