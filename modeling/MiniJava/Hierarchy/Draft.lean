import MiniJava.Hierarchy.Basic

/-!
# Drafts of hierarchies

Classes and methods made without any program, numbered as they are made. A class may get members
also after it was registered, and may be registered under any name.
-/

namespace MiniJava

namespace Bindings

variable {α : Type}

/-- Binds names one by one, up to the first that is refused. -/
def putAll (b : Bindings α) : List (String × α) → Bindings α × Except DuplicateName Unit
  | [] => (b, .ok ())
  | e :: es =>
    match b.put e.1 e.2 with
    | .ok b => b.putAll es
    | .error d => (b, .error d)

end Bindings

structure Draft where
  classes : List ClassInfo := []
  methods : List MethodInfo := []
  /-- The numbers of the registered classes. -/
  registry : Scope Nat := .empty

namespace Draft

def classAt (d : Draft) (n : Nat) : ClassInfo := d.classes.getD n default

def hierarchy (d : Draft) : Hierarchy := d.registry.mapValues d.classAt

/-- Makes a class; its number is the old number of classes. -/
def newClass (d : Draft) (name : String) (superName : Option String) : Draft :=
  { d with classes := d.classes ++ [{ name, superName, origin := .synthetic d.classes.length }] }

/-- Registers a class in the innermost layer. -/
def register (d : Draft) (name : String) (n : Nat) : Except DuplicateName Draft :=
  (d.registry.put name n).map fun registry => { d with registry }

/-- Opens a layer inside the registry. -/
def nest (d : Draft) : Draft := { d with registry := d.registry.nested }

def addField (d : Draft) (n : Nat) (name : String) (t : Ty) : Except DuplicateName Draft :=
  ((d.classAt n).fields.put name t).map fun fields =>
    { d with classes := d.classes.modify n fun c => { c with fields } }

def addMethod (d : Draft) (n : Nat) (name : String) (m : MethodInfo) :
    Except DuplicateName Draft :=
  ((d.classAt n).methods.put name m).map fun methods =>
    { d with classes := d.classes.modify n fun c => { c with methods } }

/-- Makes a method; its number is the old number of methods. A repeated name ends the lists there,
and the method keeps what came before. -/
def newMethod (d : Draft) (name : String) (returnType : Ty) (params locals : List (String × Ty)) :
    Draft × Except DuplicateName Unit :=
  let p := Bindings.putAll .empty params
  let l := match p.2 with
    | .ok _ => Bindings.putAll .empty locals
    | .error e => (.empty, .error e)
  let m : MethodInfo := ⟨name, returnType, .synthetic d.methods.length, p.1, l.1⟩
  ({ d with methods := d.methods ++ [m] }, l.2)

end Draft

end MiniJava
