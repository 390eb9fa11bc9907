import MiniJava.Proofs.Renaming
import MiniJava.Proofs.Spelling
import MiniJava.Tree.Printer

/-!
# Printed expressions are readable

An expression can be told from its printed form, up to lines, if no name in it has a parenthesis. A
printed expression is a printed head, which is not a call, followed by calls without receivers.
Heads begin with words of which none begins another, and end by themselves; after them, a dot says
whether another call follows.
-/

namespace MiniJava

/-- All names stay and all lines go. -/
def Renaming.lineless : Renaming where
  className := ⟨id, Function.injective_id⟩
  method := ⟨id, Function.injective_id⟩
  var := ⟨id, Function.injective_id⟩
  line _ := none
  method_main := rfl

lemma BinaryOp.symbol_injective : Function.Injective BinaryOp.symbol := by
  intro op op' h
  cases op <;> cases op' <;> first | rfl | exact absurd h (by decide)

lemma BinaryOp.paren_not_mem (op : BinaryOp) : '(' ∉ op.symbol.toList := by
  cases op <;> decide

lemma Numeral.toString_injective : Function.Injective (toString : Int → String) := by
  intro n n' h
  exact Option.some.inj ((parse?_toString n).symm.trans (h ▸ parse?_toString n'))

lemma Numeral.paren_not_mem_toString (n : Int) : ')' ∉ (toString n).toList := by
  obtain ⟨sign, htext, -⟩ := exists_toString n
  rw [htext, String.toList_ofList, List.mem_append, not_or]
  refine ⟨by cases sign <;> decide, fun hmem => ?_⟩
  exact absurd (Nat.isDigit_of_mem_toDigits (by decide) (by decide) hmem) (by decide)

/-- A text up to the first `c` is told from what follows. -/
lemma split_at_first {c : Char} {x y u v : List Char} (hx : c ∉ x) (hy : c ∉ y)
    (h : x ++ c :: u = y ++ c :: v) : x = y ∧ u = v := by
  obtain ⟨w, hw⟩ | ⟨w, hw⟩ : x <+: y ∨ y <+: x :=
    List.prefix_or_prefix_of_prefix (List.prefix_append x _) (h ▸ List.prefix_append y _)
  all_goals
    subst hw
    rw [List.append_assoc, List.append_cancel_left_eq] at h
    cases w <;> simp_all

namespace Expr

mutual

/-- The names of variables, classes and methods in an expression. -/
def names : Expr → List String
  | .unary _ operand _ => operand.names
  | .binary _ lhs rhs _ => lhs.names ++ rhs.names
  | .arrayLookup array index _ => array.names ++ index.names
  | .arrayLength array _ => array.names
  | .call receiver method args _ => receiver.names ++ method :: namesAll args
  | .newArray size _ => size.names
  | .newObject className _ => [className]
  | .identifier name _ => [name]
  | .this _ | .intLiteral _ _ | .boolLiteral _ _ => []
termination_by structural e => e

def namesAll : List Expr → List String
  | [] => []
  | e :: es => e.names ++ namesAll es
termination_by structural es => es

end

@[simp] lemma namesAll_eq_flatMap (es : List Expr) : namesAll es = es.flatMap names := by
  induction es with
  | nil => rfl
  | cons e es ih => simp [namesAll, ih]

/-- No name in the expression has a parenthesis. -/
def Plain (e : Expr) : Prop := ∀ x ∈ e.names, '(' ∉ x.toList ∧ ')' ∉ x.toList

instance : DecidablePred Plain := fun e =>
  inferInstanceAs (Decidable (∀ x ∈ e.names, '(' ∉ x.toList ∧ ')' ∉ x.toList))

/-- The characters of the printed expression. -/
def chars (e : Expr) : List Char := e.render.toList

/-! ### Heads and calls -/

/-- A call without its receiver. -/
structure Sending where
  method : String
  args : List Expr
  line : Line

def IsHead : Expr → Prop
  | .call .. => False
  | _ => True

/-- The parts of a head. -/
def operands : Expr → List Expr
  | .unary _ operand _ => [operand]
  | .binary _ lhs rhs _ => [lhs, rhs]
  | .arrayLookup array index _ => [array, index]
  | .arrayLength array _ => [array]
  | .newArray size _ => [size]
  | _ => []

/-- The calls one after another, each on what came before. -/
def sent (e : Expr) (calls : List Sending) : Expr :=
  calls.foldl (fun e c => .call e c.method c.args c.line) e

@[simp] lemma sent_nil (e : Expr) : e.sent [] = e := rfl

@[simp] lemma sent_cons (e : Expr) (c : Sending) (calls : List Sending) :
    e.sent (c :: calls) = (Expr.call e c.method c.args c.line).sent calls := rfl

/-- Every expression is a head with calls sent to it. -/
lemma exists_sent (e : Expr) :
    ∃ (h : Expr) (calls : List Sending), h.IsHead ∧ e = h.sent calls := by
  induction e using Expr.induction with
  | call receiver method args line ih _ =>
    obtain ⟨h, calls, hh, rfl⟩ := ih
    exact ⟨h, calls ++ [⟨method, args, line⟩], hh, by simp [sent]⟩
  | _ => exact ⟨_, [], by trivial, rfl⟩

/-- It is enough to go from the parts of a head and the arguments of the calls to the whole. -/
@[elab_as_elim]
theorem induction_sent {P : Expr → Prop}
    (sent : ∀ (h : Expr) (calls : List Sending), h.IsHead → (∀ e ∈ h.operands, P e) →
      (∀ c ∈ calls, ∀ a ∈ c.args, P a) → P (h.sent calls)) (e : Expr) : P e := by
  let Q (e : Expr) : Prop :=
    ∀ calls : List Sending, (∀ c ∈ calls, ∀ a ∈ c.args, P a) → P (e.sent calls)
  have hP {e : Expr} (he : Q e) : P e := he [] (by simp)
  suffices hQ : Q e from hP hQ
  induction e using Expr.induction with
  | unary op e line ih =>
    exact fun calls => sent _ calls trivial (by simpa [operands] using hP ih)
  | binary op l r line ihl ihr =>
    exact fun calls => sent _ calls trivial (by simpa [operands] using ⟨hP ihl, hP ihr⟩)
  | arrayLookup a i line iha ihi =>
    exact fun calls => sent _ calls trivial (by simpa [operands] using ⟨hP iha, hP ihi⟩)
  | arrayLength a line ih =>
    exact fun calls => sent _ calls trivial (by simpa [operands] using hP ih)
  | newArray n line ih =>
    exact fun calls => sent _ calls trivial (by simpa [operands] using hP ih)
  | call e m args line ih ihargs =>
    -- The call joins those that follow it, on the same head.
    intro calls hcalls
    exact ih (⟨m, args, line⟩ :: calls)
      (List.forall_mem_cons.2 ⟨fun a ha => hP (ihargs a ha), hcalls⟩)
  | _ => exact fun calls => sent _ calls trivial (by simp [operands])

/-- Plain expressions are plain in all their parts. -/
lemma Plain.of_mem_operands {h e : Expr} (hp : h.Plain) (he : e ∈ h.operands) : e.Plain := by
  have hnames : ∀ x ∈ e.names, x ∈ h.names := by
    cases h <;> grind [operands, names]
  exact fun x hx => hp x (hnames x hx)

def Sending.Plain (c : Sending) : Prop :=
  ('(' ∉ c.method.toList ∧ ')' ∉ c.method.toList) ∧ ∀ a ∈ c.args, a.Plain

lemma plain_sent {e : Expr} {calls : List Sending} :
    (e.sent calls).Plain ↔ e.Plain ∧ ∀ c ∈ calls, c.Plain := by
  induction calls generalizing e with
  | nil => simp
  | cons c calls ih =>
    rw [sent_cons, ih, List.forall_mem_cons, ← and_assoc]
    simp only [Plain, Sending.Plain, names, namesAll_eq_flatMap, List.forall_mem_append,
      List.forall_mem_cons, List.forall_mem_flatMap]

def Sending.lineless (c : Sending) : Sending :=
  ⟨c.method, c.args.map Renaming.lineless.expr, none⟩

lemma lineless_sent (e : Expr) (calls : List Sending) : Renaming.lineless.expr (e.sent calls) =
    (Renaming.lineless.expr e).sent (calls.map Sending.lineless) := by
  induction calls generalizing e with
  | nil => rfl
  | cons c calls ih =>
    rw [sent_cons, ih, Renaming.expr, Renaming.exprs_eq_map]
    rfl

/-! ### Texts -/

/-- The texts of expressions in a row, each after a comma. -/
def following (es : List Expr) : List Char := es.flatMap fun e => ',' :: ' ' :: e.chars

/-- The texts of expressions with commas between them. -/
def listed : List Expr → List Char
  | [] => []
  | e :: es => e.chars ++ following es

lemma toList_joined_render (es : List Expr) :
    (Text.joined ", " (es.map render)).toList = listed es := by
  induction es with
  | nil => rfl
  | cons e es ih =>
    cases es with
    | nil => simp [listed, following, chars]
    | cons f fs =>
      rw [List.map_cons, List.map_cons, Text.joined_cons_cons, ← List.map_cons,
        String.toList_append, ih]
      simp [listed, following, chars]

/-- The text of a call without its receiver. -/
def Sending.chars (c : Sending) : List Char :=
  '.' :: c.method.toList ++ '(' :: listed c.args ++ [')']

lemma chars_call (e : Expr) (m : String) (args : List Expr) (line : Line) :
    (Expr.call e m args line).chars = e.chars ++ Sending.chars ⟨m, args, line⟩ := by
  simp [chars, render, Sending.chars, toList_joined_render]

lemma chars_sent (e : Expr) (calls : List Sending) :
    (e.sent calls).chars = e.chars ++ calls.flatMap Sending.chars := by
  induction calls generalizing e with
  | nil => simp
  | cons c calls ih => simp [ih, chars_call]

/-- How the text of a head begins. -/
def lead : Expr → String
  | .unary .. => "!("
  | .binary .. => "("
  | .arrayLookup .. => "array_lookup["
  | .arrayLength .. => "array_length["
  | .newArray .. => "new_array["
  | .newObject .. => "new("
  | .this _ => "this"
  | .identifier .. => "identifier("
  | .intLiteral .. => "int("
  | .boolLiteral .. => "bool("
  | .call .. => ""

/-- How the text of a head goes on, before `rest`. -/
def body (rest : List Char) : Expr → List Char
  | .unary _ operand _ => listed [operand] ++ ')' :: rest
  | .binary op lhs rhs _ =>
    lhs.chars ++ ')' :: (op.symbol.toList ++ '(' :: (rhs.chars ++ ')' :: rest))
  | .arrayLookup array index _ => listed [array, index] ++ ']' :: rest
  | .arrayLength array _ => listed [array] ++ ']' :: rest
  | .newArray size _ => listed [size] ++ ']' :: rest
  | .newObject className _ => className.toList ++ ')' :: rest
  | .identifier name _ => name.toList ++ ')' :: rest
  | .intLiteral value _ => (toString value).toList ++ ')' :: rest
  | .boolLiteral value _ => (if value then "true" else "false").toList ++ ')' :: rest
  | .this _ | .call .. => rest

lemma IsHead.chars_append {h : Expr} (hh : h.IsHead) (rest : List Char) :
    h.chars ++ rest = h.lead.toList ++ h.body rest := by
  cases h with
  | call => exact hh.elim
  | boolLiteral value line => cases value <;> simp [Expr.chars, render, lead, body]
  | _ => simp [Expr.chars, render, lead, body, bracketed, UnaryOp.symbol, ← toList_joined_render]

def leads : List String :=
  ["!(", "(", "array_lookup[", "array_length[", "new_array[", "new(", "this", "identifier(",
    "int(", "bool("]

lemma IsHead.lead_mem {h : Expr} (hh : h.IsHead) : h.lead ∈ leads := by
  cases h with
  | call => exact hh.elim
  | _ => simp [lead, leads]

/-- No lead begins another. -/
lemma leads_prefixFree : ∀ a ∈ leads, ∀ b ∈ leads, a.toList <+: b.toList → a = b := by
  decide

/-- The characters that end a list. -/
def closers : List Char := [')', ']']

/-- No lead begins with the end of a list. -/
lemma head?_lead : ∀ a ∈ leads, a.toList.head? ∉ none :: closers.map some := by
  decide

/-- Heads whose texts begin alike are of one kind. -/
lemma IsHead.lead_eq {h h' : Expr} (hh : h.IsHead) (hh' : h'.IsHead) {u u' : List Char}
    (heq : h.chars ++ u = h'.chars ++ u') : h.lead = h'.lead := by
  rw [hh.chars_append, hh'.chars_append] at heq
  rcases List.prefix_or_prefix_of_prefix (List.prefix_append h.lead.toList _)
    (heq ▸ List.prefix_append h'.lead.toList _) with hpre | hpre
  · exact leads_prefixFree _ hh.lead_mem _ hh'.lead_mem hpre
  · exact (leads_prefixFree _ hh'.lead_mem _ hh.lead_mem hpre).symm

/-- No text begins with the end of a list. -/
lemma chars_append_ne {c : Char} (hc : c ∈ closers) (e : Expr) (u v : List Char) :
    e.chars ++ u ≠ c :: v := by
  obtain ⟨h, calls, hh, rfl⟩ := e.exists_sent
  intro heq
  have hhead := congrArg List.head? heq
  have hlead := head?_lead _ hh.lead_mem
  rw [chars_sent, List.append_assoc, hh.chars_append, List.head?_append] at hhead
  cases hl : h.lead.toList.head? with
  | none => simp [hl] at hlead
  | some d =>
    rw [hl, Option.some_or, List.head?_cons] at hhead
    rw [hl, hhead] at hlead
    exact hlead (List.mem_cons_of_mem _ (List.mem_map_of_mem hc))

/-! ### Reading -/

/-- The expression is told from its text and from what follows, which must not be a call. -/
def Readable (e : Expr) : Prop :=
  ∀ {e' : Expr} {u u' : List Char}, e.Plain → e'.Plain →
    u.head? ≠ some '.' → u'.head? ≠ some '.' → e.chars ++ u = e'.chars ++ u' →
    Renaming.lineless.expr e = Renaming.lineless.expr e' ∧ u = u'

lemma head?_following_append {c : Char} (hc : c ∈ closers) (es : List Expr) (u : List Char) :
    (following es ++ c :: u).head? ≠ some '.' := by
  cases es with
  | nil =>
    intro hdot
    obtain rfl : c = '.' := Option.some.inj hdot
    exact absurd hc (by decide)
  | cons e es => simp [following]

/-- A row of expressions is told from its text up to the end of the list. -/
lemma following_readable {c : Char} (hc : c ∈ closers) {es es' : List Expr} {u u' : List Char}
    (ih : ∀ e ∈ es, e.Readable) (hes : ∀ e ∈ es, e.Plain) (hes' : ∀ e ∈ es', e.Plain)
    (heq : following es ++ c :: u = following es' ++ c :: u') :
    es.map Renaming.lineless.expr = es'.map Renaming.lineless.expr ∧ u = u' := by
  have hcomma : c ≠ ',' := by rintro rfl; exact absurd hc (by decide)
  induction es generalizing es' with
  | nil =>
    cases es' with
    | nil => simpa [following] using heq
    | cons e' es' => exact absurd (List.cons.inj heq).1 hcomma
  | cons e es ihes =>
    cases es' with
    | nil => exact absurd (List.cons.inj heq).1.symm hcomma
    | cons e' es' =>
      rw [List.forall_mem_cons] at ih hes hes'
      have htexts : e.chars ++ (following es ++ c :: u) =
          e'.chars ++ (following es' ++ c :: u') := by
        simpa [following] using heq
      obtain ⟨he, hrest⟩ := ih.1 hes.1 hes'.1 (head?_following_append hc es u)
        (head?_following_append hc es' u') htexts
      obtain ⟨hrest, hu⟩ := ihes ih.2 hes.2 hes'.2 hrest
      exact ⟨by rw [List.map_cons, List.map_cons, he, hrest], hu⟩

lemma listed_readable {c : Char} (hc : c ∈ closers) {es es' : List Expr} {u u' : List Char}
    (ih : ∀ e ∈ es, e.Readable) (hes : ∀ e ∈ es, e.Plain) (hes' : ∀ e ∈ es', e.Plain)
    (heq : listed es ++ c :: u = listed es' ++ c :: u') :
    es.map Renaming.lineless.expr = es'.map Renaming.lineless.expr ∧ u = u' := by
  cases es with
  | nil =>
    cases es' with
    | nil => simpa [listed] using heq
    | cons e' es' =>
      rw [listed, listed, List.append_assoc] at heq
      exact (chars_append_ne hc _ _ _ heq.symm).elim
  | cons e es =>
    cases es' with
    | nil =>
      rw [listed, listed, List.append_assoc] at heq
      exact (chars_append_ne hc _ _ _ heq).elim
    | cons e' es' =>
      -- With a comma before them, both lists are rows.
      refine following_readable hc ih hes hes' ?_
      simpa [following, listed] using heq

lemma binary_readable {op op' : BinaryOp} {l r l' r' : Expr} {line line' : Line}
    {u u' : List Char} (ih : ∀ e ∈ [l, r], e.Readable) (hes : ∀ e ∈ [l, r], e.Plain)
    (hes' : ∀ e ∈ [l', r'], e.Plain)
    (heq : (binary op l r line).body u = (binary op' l' r' line').body u') :
    Renaming.lineless.expr (.binary op l r line) =
      Renaming.lineless.expr (.binary op' l' r' line') ∧ u = u' := by
  simp only [List.forall_mem_cons] at ih hes hes'
  obtain ⟨hl, hrest⟩ := ih.1 hes.1 hes'.1 (by simp) (by simp) heq
  obtain ⟨hop, hrest⟩ :=
    split_at_first op.paren_not_mem op'.paren_not_mem (List.cons.inj hrest).2
  obtain ⟨hr, hu⟩ := ih.2.1 hes.2.1 hes'.2.1 (by simp) (by simp) hrest
  obtain rfl := BinaryOp.symbol_injective (String.toList_injective hop)
  rw [Renaming.expr, Renaming.expr, hl, hr]
  exact ⟨rfl, (List.cons.inj hu).2⟩

/-- A head is told from its text, whatever follows it. -/
lemma IsHead.readable {h h' : Expr} (hh : h.IsHead) (hh' : h'.IsHead) (hp : h.Plain)
    (hp' : h'.Plain) (ih : ∀ e ∈ h.operands, e.Readable) {u u' : List Char}
    (heq : h.chars ++ u = h'.chars ++ u') :
    Renaming.lineless.expr h = Renaming.lineless.expr h' ∧ u = u' := by
  have hlead := hh.lead_eq hh' heq
  rw [hh.chars_append, hh'.chars_append, hlead, List.append_cancel_left_eq] at heq
  have hes : ∀ e ∈ h.operands, e.Plain := fun _ => hp.of_mem_operands
  have hes' : ∀ e ∈ h'.operands, e.Plain := fun _ => hp'.of_mem_operands
  -- What is left of the texts is compared for heads of one kind; the others begin otherwise.
  cases h with
  | call => exact hh.elim
  | unary op e line =>
    cases h' with
    | unary op' e' line' =>
      obtain ⟨hparts, hu⟩ := listed_readable (by decide) ih hes hes' heq
      cases op
      cases op'
      rw [Renaming.expr, Renaming.expr, (List.cons.inj hparts).1]
      exact ⟨rfl, hu⟩
    | _ => simp [lead] at hlead
  | binary op l r line =>
    cases h' with
    | binary op' l' r' line' => exact binary_readable ih hes hes' heq
    | _ => simp [lead] at hlead
  | arrayLookup a i line =>
    cases h' with
    | arrayLookup a' i' line' =>
      obtain ⟨hparts, hu⟩ := listed_readable (by decide) ih hes hes' heq
      obtain ⟨ha, hparts⟩ := List.cons.inj hparts
      rw [Renaming.expr, Renaming.expr, ha, (List.cons.inj hparts).1]
      exact ⟨rfl, hu⟩
    | _ => simp [lead] at hlead
  | arrayLength a line =>
    cases h' with
    | arrayLength a' line' =>
      obtain ⟨hparts, hu⟩ := listed_readable (by decide) ih hes hes' heq
      rw [Renaming.expr, Renaming.expr, (List.cons.inj hparts).1]
      exact ⟨rfl, hu⟩
    | _ => simp [lead] at hlead
  | newArray n line =>
    cases h' with
    | newArray n' line' =>
      obtain ⟨hparts, hu⟩ := listed_readable (by decide) ih hes hes' heq
      rw [Renaming.expr, Renaming.expr, (List.cons.inj hparts).1]
      exact ⟨rfl, hu⟩
    | _ => simp [lead] at hlead
  | newObject c line =>
    cases h' with
    | newObject c' line' =>
      obtain ⟨hname, hu⟩ := split_at_first (hp c (.head _)).2 (hp' c' (.head _)).2 heq
      rw [String.toList_injective hname]
      exact ⟨rfl, hu⟩
    | _ => simp [lead] at hlead
  | this line =>
    cases h' with
    | this line' => exact ⟨rfl, heq⟩
    | _ => simp [lead] at hlead
  | identifier x line =>
    cases h' with
    | identifier x' line' =>
      obtain ⟨hname, hu⟩ := split_at_first (hp x (.head _)).2 (hp' x' (.head _)).2 heq
      rw [String.toList_injective hname]
      exact ⟨rfl, hu⟩
    | _ => simp [lead] at hlead
  | intLiteral n line =>
    cases h' with
    | intLiteral n' line' =>
      obtain ⟨hdigits, hu⟩ := split_at_first (Numeral.paren_not_mem_toString n)
        (Numeral.paren_not_mem_toString n') heq
      rw [Numeral.toString_injective (String.toList_injective hdigits)]
      exact ⟨rfl, hu⟩
    | _ => simp [lead] at hlead
  | boolLiteral b line =>
    cases h' with
    | boolLiteral b' line' =>
      obtain ⟨rfl, hu⟩ : b = b' ∧ u = u' := by cases b <;> cases b' <;> simp_all [body]
      exact ⟨rfl, hu⟩
    | _ => simp [lead] at hlead

/-- Calls are told from their text: each begins with a dot, and what follows them does not. -/
lemma calls_readable {calls calls' : List Sending} {u u' : List Char}
    (ih : ∀ c ∈ calls, ∀ a ∈ c.args, a.Readable) (hp : ∀ c ∈ calls, c.Plain)
    (hp' : ∀ c ∈ calls', c.Plain) (hu : u.head? ≠ some '.') (hu' : u'.head? ≠ some '.')
    (heq : calls.flatMap Sending.chars ++ u = calls'.flatMap Sending.chars ++ u') :
    calls.map Sending.lineless = calls'.map Sending.lineless ∧ u = u' := by
  induction calls generalizing calls' with
  | nil =>
    cases calls' with
    | nil => exact ⟨rfl, heq⟩
    | cons c' calls' => exact (hu (congrArg List.head? heq)).elim
  | cons c calls ihcalls =>
    cases calls' with
    | nil => exact (hu' (congrArg List.head? heq.symm)).elim
    | cons c' calls' =>
      rw [List.forall_mem_cons] at ih hp hp'
      have htexts : c.method.toList ++ '(' :: (listed c.args ++ ')' ::
            (calls.flatMap Sending.chars ++ u)) =
          c'.method.toList ++ '(' :: (listed c'.args ++ ')' ::
            (calls'.flatMap Sending.chars ++ u')) := by
        simpa [Sending.chars] using heq
      obtain ⟨hmethod, hrest⟩ := split_at_first hp.1.1.1 hp'.1.1.1 htexts
      obtain ⟨hargs, hrest⟩ := listed_readable (by decide) ih.1 hp.1.2 hp'.1.2 hrest
      obtain ⟨hcalls, huu⟩ := ihcalls ih.2 hp.2 hp'.2 hrest
      have hc : c.lineless = c'.lineless := by
        rw [Sending.lineless, Sending.lineless, String.toList_injective hmethod, hargs]
      exact ⟨by rw [List.map_cons, List.map_cons, hc, hcalls], huu⟩

/-- Every expression is told from its text, if no call follows. -/
theorem readable (e : Expr) : e.Readable := by
  induction e using induction_sent with
  | sent h calls hh ih ihargs =>
    intro e' u u' hp hp' hu hu' heq
    obtain ⟨h', calls', hh', rfl⟩ := e'.exists_sent
    rw [plain_sent] at hp hp'
    rw [chars_sent, chars_sent, List.append_assoc, List.append_assoc] at heq
    obtain ⟨hhead, hrest⟩ := hh.readable hh' hp.1 hp'.1 ih heq
    obtain ⟨hcalls, huu⟩ := calls_readable ihargs hp.2 hp'.2 hu hu' hrest
    exact ⟨by rw [lineless_sent, lineless_sent, hhead, hcalls], huu⟩

/-- Lines are not printed. -/
lemma render_lineless (e : Expr) : (Renaming.lineless.expr e).render = e.render := by
  induction e using Expr.induction with
  | call e m args line ih ihargs =>
    have hargs : (args.map Renaming.lineless.expr).map render = args.map render := by
      rw [List.map_map]
      exact List.map_congr_left ihargs
    rw [Renaming.expr, render, render, ih]
    simp only [Renaming.exprs_eq_map, renderAll_eq_map, hargs]
    rfl
  | newObject | this | identifier | intLiteral | boolLiteral => rfl
  | _ => simp_all [Renaming.expr, render]

/-- Two expressions are printed alike exactly if they differ in lines only. No more is asked of the
names than that they have no parentheses, as names of letters, digits and underscores have none. -/
theorem rendering_unambiguous {e₁ e₂ : Expr} (h₁ : e₁.Plain) (h₂ : e₂.Plain) :
    e₁.render = e₂.render ↔ Renaming.lineless.expr e₁ = Renaming.lineless.expr e₂ := by
  constructor
  · intro heq
    have hchars : e₁.chars ++ [] = e₂.chars ++ [] := by rw [chars, chars, heq]
    exact (e₁.readable h₁ h₂ (by simp) (by simp) hchars).1
  · intro heq
    rw [← e₁.render_lineless, heq, e₂.render_lineless]

/-- A sum is asked for its size, and that for an item. -/
def relayed (line : Line) : Expr :=
  .call (.call (.binary .add (.identifier "x_1" line) (.intLiteral (-4) line) line) "size" [] line)
    "item" [.newObject "Key" line, .boolLiteral true line] line

theorem rendering_unambiguous_relayed : (relayed none).Plain ∧ (relayed (some 3)).Plain ∧
    (relayed none).render =
      "(identifier(x_1))+(int(-4)).size().item(new(Key), bool(true))" ∧
    Renaming.lineless.expr (relayed none) = Renaming.lineless.expr (relayed (some 3)) := by
  have hplain : (relayed none).Plain := by decide
  have hplain' : (relayed (some 3)).Plain := by decide
  exact ⟨hplain, hplain', by decide, (rendering_unambiguous hplain hplain').1 (by decide)⟩

/-- A name with parentheses can be taken for a call. -/
example : (Expr.identifier "x).f(" none).render =
    (Expr.call (.identifier "x" none) "f" [] none).render := by
  decide

end Expr

end MiniJava
