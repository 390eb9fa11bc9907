import MiniJava.Typing.Context

/-!
# Types of expressions

Every expression has a type. One that does not check has type `error`, which fits everywhere, so
that one mistake is told once.
-/

namespace MiniJava

/-- Compares arguments with parameter types one by one, from position `pos` on. -/
def judgeArgs (h : Hierarchy) (method : String) (pos : Nat) :
    List (Ty × Line) → List Ty → List Diagnostic
  | (actual, line) :: args, expected :: params =>
    (if h.fits actual expected then []
      else [⟨.argumentTypeMismatch method pos expected actual, line⟩]) ++
    judgeArgs h method (pos + 1) args params
  | _, _ => []

/-- The type of a call, and what is wrong with the call itself, by the types of its receiver and
its arguments. -/
def judgeCall (h : Hierarchy) (receiver : Ty) (receiverLine : Line) (method : String)
    (args : List (Ty × Line)) (line : Line) : Ty × List Diagnostic :=
  match h.settled receiver with
  | .error => (.error, [])
  | .object className =>
    match h.findMethod? className method with
    | none => (.error, [⟨.undefinedMethod className method, line⟩])
    | some m =>
      if m.params.size = args.length then
        (h.settled m.returnType, judgeArgs h method 1 args m.paramTypes)
      else (.error, [⟨.arityMismatch method m.params.size args.length, line⟩])
  | other => (.error, [⟨.notAnObject other, receiverLine⟩])

mutual

/-- The type of an expression and its diagnostics, in the order in which they are found. -/
def Expr.infer (h : Hierarchy) (ctx : Context) : Expr → Ty × List Diagnostic
  | .unary .not operand _ =>
    (.boolean, expecting h .boolean operand.line (operand.infer h ctx))
  | .binary op lhs rhs _ =>
    (op.result, expecting h op.operand lhs.line (lhs.infer h ctx) ++
      expecting h op.operand rhs.line (rhs.infer h ctx))
  | .arrayLookup array index _ =>
    (.int, expecting h .intArray array.line (array.infer h ctx) ++
      expecting h .int index.line (index.infer h ctx))
  | .arrayLength array _ => (.int, expecting h .intArray array.line (array.infer h ctx))
  | .call receiver method args line =>
    let r := receiver.infer h ctx
    let as := Expr.inferAll h ctx args
    let call := judgeCall h r.1 receiver.line method
      ((as.map Prod.fst).zip (args.map Expr.line)) line
    (call.1, r.2 ++ as.flatMap Prod.snd ++ call.2)
  | .newArray size _ => (.intArray, expecting h .int size.line (size.infer h ctx))
  | .newObject className line =>
    if (h.get? className).isSome then (.object className, [])
    else (.error, [⟨.undefinedClass className, line⟩])
  | .this _ => (.object ctx.owner.name, [])
  | .identifier name line =>
    match ctx.typeOf h name line with
    | .ok t => (t, [])
    | .error d => (.error, [d])
  | .intLiteral _ _ => (.int, [])
  | .boolLiteral _ _ => (.boolean, [])
termination_by structural e => e

def Expr.inferAll (h : Hierarchy) (ctx : Context) : List Expr → List (Ty × List Diagnostic)
  | [] => []
  | e :: es => e.infer h ctx :: Expr.inferAll h ctx es
termination_by structural es => es

end

@[simp] theorem Expr.inferAll_eq_map (h : Hierarchy) (ctx : Context) (es : List Expr) :
    Expr.inferAll h ctx es = es.map (Expr.infer h ctx) := by
  induction es with
  | nil => rfl
  | cons e es ih => simp [Expr.inferAll, ih]

/-- A call is judged by the types of its receiver and of its arguments. -/
theorem infer_call {h : Hierarchy} {ctx : Context} (e : Expr) (method : String)
    (args : List Expr) (line : Line) :
    (Expr.call e method args line).infer h ctx =
      ((judgeCall h (e.infer h ctx).1 e.line method
          (args.map fun a => ((a.infer h ctx).1, a.line)) line).1,
        (e.infer h ctx).2 ++ (args.flatMap fun a => (a.infer h ctx).2) ++
          (judgeCall h (e.infer h ctx).1 e.line method
            (args.map fun a => ((a.infer h ctx).1, a.line)) line).2) := by
  simp only [Expr.infer, Expr.inferAll_eq_map, List.map_map, List.zip_map', List.flatMap_map,
    Function.comp_def]

/-- The diagnostics of an expression that is to have type `expected`. -/
def Expr.checkAs (h : Hierarchy) (ctx : Context) (expected : Ty) (e : Expr) : List Diagnostic :=
  expecting h expected e.line (e.infer h ctx)

/-- The diagnostics of a condition. -/
def Expr.checkAsCondition (h : Hierarchy) (ctx : Context) (e : Expr) : List Diagnostic :=
  let r := e.infer h ctx
  r.2 ++ if h.fits r.1 .boolean then [] else [⟨.conditionTypeMismatch r.1, e.line⟩]

end MiniJava
