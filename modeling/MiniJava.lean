import MiniJava.Hierarchy.Draft
import MiniJava.Hierarchy.Gathering
import MiniJava.Proofs.Calls
import MiniJava.Proofs.Circles
import MiniJava.Proofs.Extension
import MiniJava.Proofs.Faults
import MiniJava.Proofs.Nearest
import MiniJava.Proofs.Opacity
import MiniJava.Proofs.OpenScopes
import MiniJava.Proofs.ProperTypes
import MiniJava.Proofs.Pruning
import MiniJava.Proofs.Readability
import MiniJava.Proofs.Reordering
import MiniJava.Proofs.RepeatedFormals
import MiniJava.Proofs.ScopeDiscipline
import MiniJava.Proofs.Spelling
import MiniJava.Proofs.Subtyping
import MiniJava.Proofs.Suppression
import MiniJava.Proofs.UndeclaredTypes
import MiniJava.Proofs.Unresolved
import MiniJava.Proofs.Variables
import MiniJava.Proofs.WriteOnce
