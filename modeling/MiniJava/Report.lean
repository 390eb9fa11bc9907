import MiniJava.Diagnostic
import MiniJava.IndexFault

/-!
# Reports

Findings in the order in which they were made. A report that holds any is closed with a rejection
that carries all of them; closing changes nothing, so it may be repeated.
-/

namespace MiniJava

/-- All that was found wrong, as the reason of a refusal. -/
structure Rejection where
  findings : List Finding
deriving DecidableEq, Repr

/-- The findings, one a line. -/
def findingLines (fs : List Finding) : String := Text.joined "\n" (fs.map (·.text))

namespace Rejection

def message (r : Rejection) : String := findingLines r.findings

/-- The first finding; a rejection made without any has none. -/
def first (r : Rejection) : Except IndexFault Finding :=
  match r.findings with
  | [] => .error .sequence
  | f :: _ => .ok f

def kinds (r : Rejection) : List Kind := r.findings.map (·.kind)

end Rejection

structure Report where
  findings : List Finding := []
deriving DecidableEq, Repr

/-- An argument of a finding that is not made from an issue. -/
inductive Subject where
  | word (s : String)
  | number (n : Int)
  | type (t : Ty)
deriving DecidableEq, Repr

def Subject.text : Subject → String
  | word s => s
  | number n => toString n
  | type t => t.name

namespace Report

def add (r : Report) (f : Finding) : Report := ⟨r.findings ++ [f]⟩

/-- Adds a finding about any subjects. -/
def tell (r : Report) (kind : Kind) (subjects : List Subject) (line : Option Int) : Report :=
  r.add ⟨kind, subjects.map (·.text), line⟩

def addAll (r : Report) (ds : List Diagnostic) : Report := ⟨r.findings ++ ds.map (·.finding)⟩

theorem addAll_nil (r : Report) : r.addAll [] = r := by
  simp [addAll]

theorem addAll_append (r : Report) (ds es : List Diagnostic) :
    r.addAll (ds ++ es) = (r.addAll ds).addAll es := by
  simp [addAll]

def count (r : Report) : Nat := r.findings.length

def hasFindings (r : Report) : Bool := !r.findings.isEmpty

def text (r : Report) : String := findingLines r.findings

def close (r : Report) : Except Rejection Unit :=
  if r.findings.isEmpty then .ok () else .error ⟨r.findings⟩

/-- The findings without repetitions; the first of equal ones is kept. -/
def distinct (r : Report) : List Finding :=
  r.findings.eraseDups

end Report

end MiniJava
