import MiniJava.Fault
import MiniJava.Tree.Node

/-!
# Nodes that a pass does not handle
-/

namespace MiniJava

/-- Refuses a node. A list is gone through child by child, so its first child is refused in its
place and an empty list passes; a block is a statement and is refused itself. -/
def Node.refuse (pass : Pass) (n : Node) : Except Fault Unit :=
  match n with
  | .classes _ _ | .vars _ _ | .methods _ _ | .stmts _ _ | .exprs _ _ =>
    match n.children with
    | [] => .ok ()
    | c :: _ => .error (.unhandled pass c.name)
  | _ => .error (.unhandled pass n.name)

end MiniJava
