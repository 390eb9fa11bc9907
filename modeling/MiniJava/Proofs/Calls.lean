import MiniJava.Proofs.Mismatches
import MiniJava.Proofs.Nearest

/-!
# Calls and the declarations they lead to

A call is judged by what is recorded of the method that it finds. Here that is read back to the text
of the program: the method is the first of its name in the nearest class up the chain that declares
one, the arguments meet its formals in the order in which these are written, and the call has the
type that the declaration gives.
-/

namespace MiniJava

section Arguments

variable {h : Hierarchy} {ctx : Context}

/-- What is told of the argument at a position, if its type clashes with that of the formal. -/
def argumentFinding? (h : Hierarchy) (ctx : Context) (method : String) (arg : Expr) (v : VarDecl)
    (position : Nat) : Option Diagnostic :=
  if h.Clash (arg.infer h ctx).1 v.ty then
    some ⟨.argumentTypeMismatch method position v.ty (arg.infer h ctx).1, arg.line⟩
  else none

lemma judgeArgs_eq_filterMap (method : String) (pos : Nat) (args : List Expr)
    (formals : List VarDecl) :
    judgeArgs h method pos (args.map fun a => ((a.infer h ctx).1, a.line))
        (formals.map VarDecl.ty) =
      ((args.zip formals).zipIdx pos).filterMap fun x =>
        argumentFinding? h ctx method x.1.1 x.1.2 x.2 := by
  induction args generalizing pos formals with
  | nil => rfl
  | cons a args ih =>
    cases formals with
    | nil => rfl
    | cons v formals =>
      have hrest := ih (pos + 1) formals
      have hfits : h.fits (a.infer h ctx).1 v.ty = true ↔ ¬ h.Clash (a.infer h ctx).1 v.ty := by
        rw [← Hierarchy.fits_eq_false_iff, Bool.not_eq_false]
      rw [List.map_cons, List.map_cons, judgeArgs, hrest, List.zip_cons_cons, List.zipIdx_cons,
        List.filterMap_cons]
      by_cases hclash : h.Clash (a.infer h ctx).1 v.ty
      · have hfit : ¬ h.fits (a.infer h ctx).1 v.ty = true := fun hfit => hfits.1 hfit hclash
        rw [if_neg hfit, argumentFinding?, if_pos hclash]
        rfl
      · rw [if_pos (hfits.2 hclash), argumentFinding?, if_neg hclash]
        rfl

end Arguments

namespace Program

variable {p : Program} {className method : String} {m : MethodDecl}

/-- Where a call of `method` on an object of class `className` leads to: the first method of that
name in the nearest class that declares one. -/
inductive Resolves (p : Program) (className method : String) (m : MethodDecl) : Prop
  | found {s : TopDecl} {n : Nat} {d : ClassDecl} (hs : p.classNamed? className = some s)
      (hd : FirstUp p.climb (fun e => method ∈ e.methodNames) s n (.ordinary d))
      (hm : d.methods.find? (fun e => e.name = method) = some m)

lemma Resolves.findMethod?_eq (hm : p.Resolves className method m) :
    p.hierarchy.findMethod? className method = some m.info.1 := by
  obtain @⟨s, n, d, hs, hd, hm⟩ := hm
  have hget : p.hierarchy.get? className = some s.info := by
    rw [get?_hierarchy_eq, hs, Option.map_some]
  have hHas : ∀ e : TopDecl,
      (e.info.methods.get? method).isSome = true ↔ method ∈ e.methodNames := by
    intro e
    rw [Bindings.get?_isSome_iff, e.mem_methodNames_iff]
  have hinfo : d.info.1.methods.get? method = some m.info.1 := by
    rw [d.get?_methods, hm, Option.map_some]
  rw [Hierarchy.findMethod?_eq, hget, Option.bind_some,
    findSome?_walk_info_iff hHas (p.hierarchy_keyed.bound hget)]
  exact ⟨n, .ordinary d, hd, hinfo⟩

lemma Resolves.judgeCall_eq (hm : p.Resolves className method m)
    (hformals : (m.formals.map VarDecl.name).Nodup) (receiverLine line : Line)
    (args : List (Ty × Line)) :
    judgeCall p.hierarchy (.object className) receiverLine method args line =
      if m.formals.length = args.length then (p.hierarchy.settled m.returnType.ty,
        judgeArgs p.hierarchy method 1 args (m.formals.map VarDecl.ty))
      else (.error, [⟨.arityMismatch method m.formals.length args.length, line⟩]) := by
  have hclass : p.hierarchy.settled (.object className) = .object className := by
    obtain ⟨c, hc, _⟩ := Option.bind_eq_some_iff.1 hm.findMethod?_eq
    simp [Hierarchy.settled, hc]
  have hsize : m.info.1.params.size = m.formals.length := by
    rw [Bindings.size, m.entries_params hformals, List.length_map]
  have htypes : m.info.1.paramTypes = m.formals.map VarDecl.ty := by
    rw [MethodInfo.paramTypes, Bindings.values, m.entries_params hformals, List.map_map]
    rfl
  simp only [judgeCall, hclass, hm.findMethod?_eq, hsize, htypes]
  rfl

/-- Let the receiver be an object, and let no two formals of the method that the call leads to have
the same name. What is found in the receiver is told first, then what is found in the arguments. If
there are not as many arguments as formals, that is all that is told of the call itself, and the
call has failed. Otherwise each argument whose type clashes with that of its formal is told, by
position and with its own line, and nothing else; the call has the declared type, unless that names
a class that there is not. -/
theorem call_judged_by_declaration {ctx : Context} {receiver : Expr}
    (hreceiver : (receiver.infer p.hierarchy ctx).1 = .object className)
    (hm : p.Resolves className method m) (hformals : (m.formals.map VarDecl.name).Nodup)
    (args : List Expr) (line : Line) :
    ∃ t own, (Expr.call receiver method args line).infer p.hierarchy ctx =
        (t, (receiver.infer p.hierarchy ctx).2 ++
          args.flatMap (fun a => (a.infer p.hierarchy ctx).2) ++ own) ∧
      (m.formals.length ≠ args.length → t = .error ∧
        own = [⟨.arityMismatch method m.formals.length args.length, line⟩]) ∧
      (m.formals.length = args.length →
        own = ((args.zip m.formals).zipIdx 1).filterMap (fun x =>
          argumentFinding? p.hierarchy ctx method x.1.1 x.1.2 x.2) ∧
        (p.Declared m.returnType.ty → t = m.returnType.ty) ∧
        (¬ p.Declared m.returnType.ty → t = .error)) := by
  rw [infer_call, hreceiver, hm.judgeCall_eq hformals, List.length_map]
  refine ⟨_, _, rfl, fun hlength => ?_, fun hlength => ?_⟩
  · rw [if_neg hlength]
    exact ⟨rfl, rfl⟩
  · rw [if_pos hlength]
    exact ⟨judgeArgs_eq_filterMap method 1 args m.formals, settled_of_declared,
      settled_of_not_declared⟩

/-- A method with three formals, two classes above the one whose object is called. -/
def inherited : MethodDecl :=
  ⟨2, ⟨.ofClass "A", none⟩, "f", [⟨⟨.int, none⟩, "x", none⟩, ⟨⟨.ofClass "D", none⟩, "y", none⟩,
    ⟨⟨.ofClass "B", none⟩, "z", none⟩], [], [], .this none, none⟩

def heirs : Program where
  main := ⟨"Main", "args", .block [] none, none⟩
  classes :=
    [⟨1, "A", none, [], [inherited], none⟩, ⟨3, "B", some "A", [], [], none⟩,
      ⟨4, "C", some "B", [], [], none⟩]
  line := none

lemma resolves_heirs : heirs.Resolves "C" "f" inherited :=
  .found (s := .ordinary ⟨4, "C", some "B", [], [], none⟩) (n := 2)
    (d := ⟨1, "A", none, [], [inherited], none⟩) rfl (.of_forall_lt rfl (by decide) (by decide)) rfl

/-- The call `new C().f(true, true, new A())`. The second formal is of a class that there is not, so
only the first and the third argument are told. One argument less, and that is told instead. -/
theorem call_judged_by_declaration_heirs :
    ((Expr.newObject "C" none).infer heirs.hierarchy heirs.mainContext).1 = .object "C" ∧
    heirs.Resolves "C" "f" inherited ∧ (inherited.formals.map VarDecl.name).Nodup ∧
    (Expr.call (.newObject "C" none) "f" [.boolLiteral true (some 1), .boolLiteral true (some 2),
        .newObject "A" (some 3)] (some 4)).infer heirs.hierarchy heirs.mainContext =
      (.object "A", [⟨.argumentTypeMismatch "f" 1 .int .boolean, some 1⟩,
        ⟨.argumentTypeMismatch "f" 3 (.object "B") (.object "A"), some 3⟩]) ∧
    (Expr.call (.newObject "C" none) "f" [.boolLiteral true (some 1), .boolLiteral true (some 2)]
        (some 4)).infer heirs.hierarchy heirs.mainContext =
      (.error, [⟨.arityMismatch "f" 3 2, some 4⟩]) := by
  have hreceiver : ((Expr.newObject "C" none).infer heirs.hierarchy heirs.mainContext).1 =
      .object "C" := rfl
  have hformals : (inherited.formals.map VarDecl.name).Nodup := by decide
  have hdeclared : "A" ∈ heirs.classNames := by decide
  refine ⟨hreceiver, resolves_heirs, hformals, ?_, ?_⟩
  · obtain ⟨t, own, hinfer, _, hright⟩ := call_judged_by_declaration hreceiver resolves_heirs
      hformals [.boolLiteral true (some 1), .boolLiteral true (some 2), .newObject "A" (some 3)]
      (some 4)
    obtain ⟨rfl, htype, _⟩ := hright rfl
    rw [hinfer, htype hdeclared]
    rfl
  · obtain ⟨t, own, hinfer, hwrong, _⟩ := call_judged_by_declaration hreceiver resolves_heirs
      hformals [.boolLiteral true (some 1), .boolLiteral true (some 2)] (some 4)
    obtain ⟨rfl, rfl⟩ := hwrong (by decide)
    exact hinfer

end Program

end MiniJava
