import MiniJava.Hierarchy.Gathering
import MiniJava.Proofs.Acceptance
import MiniJava.Session

/-!
# The one fault of a check

The tables of a main class are new when they are filled, so any program can be collected. Scopes are
closed as often as they are opened and every walk up the superclasses ends, so a program can be
checked against any hierarchy whatsoever. The one exception is the start: a program whose main class
is unknown, or known as a class without `main`, cannot be checked at all.
-/

namespace MiniJava

/-- The name stands for no class, or for one that does not itself have a method `main`. -/
def Hierarchy.LacksMain (h : Hierarchy) (name : String) : Prop :=
  h.get? name = none ∨ ∃ c, h.get? name = some c ∧ c.methods.get? mainMethod = none

lemma Hierarchy.lacksMain_or_context? (h : Hierarchy) (m : MainClass) :
    (h.LacksMain m.name ∧ m.context? h = none) ∨
      ¬ h.LacksMain m.name ∧ ∃ ctx, m.context? h = some ctx := by
  unfold LacksMain MainClass.context?
  cases hc : h.get? m.name with
  | none => simp
  | some c => cases hm : c.methods.get? mainMethod <;> simp [hm]

lemma MainClass.check_eq_fail {h : Hierarchy} {m : MainClass} (hm : h.LacksMain m.name) :
    m.check h = .fail .noMainMethod := by
  unfold check
  rcases hm with hnone | ⟨c, hc, hnone⟩
  · rw [hnone]
  · rw [hc]
    simp only [hnone]

namespace Program

/-- Without a main method nothing is done before the fault. -/
lemma checkAgainst_eq_fail {h : Hierarchy} {p : Program} (hp : h.LacksMain p.main.name) :
    p.checkAgainst h = .fail .noMainMethod := by
  unfold checkAgainst
  rw [MainClass.check_eq_fail hp]
  rfl

lemma exists_checkAgainst_finds {h : Hierarchy} {p : Program} (hp : ¬ h.LacksMain p.main.name) :
    ∃ ds, (p.checkAgainst h).Finds () ds := by
  rcases h.lacksMain_or_context? p.main with ⟨hlacks, _⟩ | ⟨_, ctx, hctx⟩
  · exact absurd hlacks hp
  · exact ⟨_, checkAgainst_finds hctx⟩

lemma check_eq_ok_or_findings (p : Program) :
    (∃ checked, p.check = .ok checked) ∨ ∃ ds, ds ≠ [] ∧ p.check = .error (.findings ds) := by
  rw [check_eq_findings]
  by_cases hnone : p.findings = []
  · left
    exact ⟨_, if_pos (by simp [hnone])⟩
  · right
    exact ⟨p.findings, hnone, if_neg (by simpa using hnone)⟩

end Program

namespace Session

lemma check_eq_error_iff (s : Session) (q : Program) (f : Fault) :
    s.check q = .error f ↔ f = .noMainMethod ∧ s.hierarchy.LacksMain q.main.name := by
  by_cases hlacks : s.hierarchy.LacksMain q.main.name
  · have hfail : s.check q = .error .noMainMethod := by
      unfold check
      rw [Program.checkAgainst_eq_fail hlacks]
      rfl
    rw [hfail]
    simp [hlacks, eq_comm]
  · obtain ⟨ds, hds⟩ := Program.exists_checkAgainst_finds hlacks
    have hok : s.check q = .ok (s.afterCheck q, ds) := by
      simp only [check, hds.outcome, hds.diagnostics]
      rfl
    rw [hok]
    simp [hlacks]

lemma afterCheck_eq_self {s : Session} {q : Program} (hlacks : s.hierarchy.LacksMain q.main.name) :
    s.afterCheck q = s := by
  have hnone : (q.checkAgainst s.hierarchy).diagnostics = [] := by
    rw [Program.checkAgainst_eq_fail hlacks]
    rfl
  simp [afterCheck, hnone, Report.addAll]

/-- Collect any programs, then take any program `q`. No main class is refused its method or its
parameter, so all of them can be collected, and `q` after them. It can be checked as well unless its
main class is not known with a method `main`; then the fault says so and nothing is reported. Each
walk up the superclasses ends for a reason of its own, an unknown class or a name seen before. A
program checked by itself is accepted or refused for its findings. -/
theorem faults_only_without_main (start : Report) (ps : List Program) (q : Program) :
    let s := Session.collectAll ⟨.empty, start⟩ ps
    Session.buildAll ⟨.empty, start⟩ ps = .ok s ∧
    (∀ holder, ∃ r, Gathering.collect ⟨s.hierarchy, holder⟩ (.program q) = .ok r) ∧
    (∀ seen c, s.hierarchy.Walked seen (s.hierarchy.superclass? c)
      (s.hierarchy.walk seen (s.hierarchy.superclass? c))) ∧
    ((∃ f, s.check q = .error f) ↔ s.hierarchy.LacksMain q.main.name) ∧
    (∀ f, s.check q = .error f → f = .noMainMethod ∧ s.afterCheck q = s) ∧
    ((∃ checked, q.check = .ok checked) ∨ ∃ ds, ds ≠ [] ∧ q.check = .error (.findings ds)) := by
  intro s
  refine ⟨buildAll_eq_ok _ ps, fun holder => ?_, fun seen c => Hierarchy.walked_above seen c, ?_,
    ?_, q.check_eq_ok_or_findings⟩
  · rw [Gathering.collect, Hierarchy.build_eq_ok]
    exact ⟨_, rfl⟩
  · simp [check_eq_error_iff]
  · intro f hf
    obtain ⟨rfl, hlacks⟩ := (s.check_eq_error_iff q f).1 hf
    exact ⟨rfl, afterCheck_eq_self hlacks⟩

end Session

end MiniJava
