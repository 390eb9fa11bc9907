import Mathlib.Data.List.TakeWhile
import Mathlib.Data.Nat.Digits.Defs
import Mathlib.Tactic.Lemma
import MiniJava.Numeral

/-!
# How numerals are written

A spelling is a numeral taken apart: the blanks around it, its sign if it has one, and its digits,
each with or without an underscore in front. Reading accepts the texts of spellings and no others,
and finds the value of their digits to the base ten.
-/

namespace MiniJava

/-! ### Blanks -/

namespace Text

lemma trimBlanks_sublist (cs : List Char) : (trimBlanks cs).Sublist cs := by
  have hback : ((cs.dropWhile isBlank).reverse.dropWhile isBlank).reverse.Sublist
      (cs.dropWhile isBlank).reverse.reverse := (List.dropWhile_sublist isBlank).reverse
  rw [List.reverse_reverse] at hback
  exact hback.trans (List.dropWhile_sublist isBlank)

/-- Nothing but blanks is cut off. -/
lemma exists_trimBlanks (cs : List Char) :
    ∃ before after, (∀ c ∈ before, isBlank c = true) ∧ (∀ c ∈ after, isBlank c = true) ∧
      cs = before ++ trimBlanks cs ++ after := by
  refine ⟨cs.takeWhile isBlank, ((cs.dropWhile isBlank).reverse.takeWhile isBlank).reverse,
    fun c hc => List.mem_takeWhile_imp hc,
    fun c hc => List.mem_takeWhile_imp (List.mem_reverse.1 hc), ?_⟩
  rw [trimBlanks, List.append_assoc, ← List.reverse_append, List.takeWhile_append_dropWhile,
    List.reverse_reverse, List.takeWhile_append_dropWhile]

/-- All blanks around a text that neither starts nor ends with one are cut off. -/
lemma trimBlanks_eq {before core after : List Char} (hbefore : ∀ c ∈ before, isBlank c = true)
    (hafter : ∀ c ∈ after, isBlank c = true) (hfirst : ∀ c ∈ core.head?, isBlank c = false)
    (hlast : ∀ c ∈ core.getLast?, isBlank c = false) :
    trimBlanks (before ++ core ++ after) = core := by
  rw [trimBlanks, List.append_assoc, List.dropWhile_append_of_pos hbefore]
  cases core with
  | nil =>
    have hnil : after.dropWhile isBlank = [] := List.dropWhile_eq_nil_iff.2 hafter
    simp [hnil]
  | cons c cs =>
    have hc : ¬ isBlank c = true := by simp [hfirst c rfl]
    have hend : (c :: cs).reverse.dropWhile isBlank = (c :: cs).reverse := by
      cases hrev : (c :: cs).reverse with
      | nil => rfl
      | cons d ds =>
        have hd : isBlank d = false := hlast d (by rw [← List.head?_reverse, hrev]; rfl)
        exact List.dropWhile_cons_of_neg (by simp [hd])
    rw [List.cons_append, List.dropWhile_cons_of_neg hc, ← List.cons_append, List.reverse_append,
      List.dropWhile_append_of_pos fun d hd => hafter d (List.mem_reverse.1 hd), hend,
      List.reverse_reverse]

/-! ### Characters -/

/-- The character stands `d` places behind a zero. -/
def IsDigit (c : Char) (d : Nat) : Prop := d < 10 ∧ ∃ z ∈ zeroDigits, c.toNat = z + d

lemma digitValue?_eq_some_iff {c : Char} {d : Nat} : digitValue? c = some d ↔ IsDigit c d := by
  have hapart : ∀ z ∈ zeroDigits, ∀ y ∈ zeroDigits, z = y ∨ z + 10 ≤ y ∨ y + 10 ≤ z := by
    decide +kernel
  constructor
  · intro hc
    obtain ⟨z, hz, rfl⟩ := Option.map_eq_some_iff.1 hc
    have hrun := List.find?_some hz
    simp only [Bool.and_eq_true, decide_eq_true_eq] at hrun
    exact ⟨by omega, z, List.mem_of_find?_eq_some hz, by omega⟩
  · rintro ⟨hd, z, hz, hc⟩
    have hsome : (zeroDigits.find? fun z => z ≤ c.toNat && c.toNat < z + 10).isSome = true := by
      rw [List.find?_isSome]
      refine ⟨z, hz, ?_⟩
      simp only [Bool.and_eq_true, decide_eq_true_eq]
      omega
    -- the zero that is found is the same, since the runs of ten are apart
    obtain ⟨y, hy⟩ := Option.isSome_iff_exists.1 hsome
    have hrun := List.find?_some hy
    simp only [Bool.and_eq_true, decide_eq_true_eq] at hrun
    have hzy := hapart z hz y (List.mem_of_find?_eq_some hy)
    rw [digitValue?, hy, Option.map_some, Option.some.injEq]
    omega

/-- No run of ten digits meets a range of blanks. -/
lemma IsDigit.isBlank {c : Char} {d : Nat} (hc : IsDigit c d) : isBlank c = false := by
  have hapart : ∀ z ∈ zeroDigits, ∀ r ∈ blankRanges, r.2 < z ∨ z + 10 ≤ r.1 := by decide +kernel
  obtain ⟨hd, z, hz, hcz⟩ := hc
  rw [Text.isBlank, List.any_eq_false]
  intro r hr
  simp only [Bool.and_eq_true, decide_eq_true_eq, not_and]
  have hzr := hapart z hz r hr
  omega

lemma isDigit_of_ascii {c : Char} (hc : c.isDigit = true) : IsDigit c (c.toNat - '0'.toNat) := by
  obtain ⟨hlow, hhigh⟩ := Char.isDigit_iff_toNat.1 hc
  have hzero : '0'.toNat = 0x30 := rfl
  have hnine : '9'.toNat = 0x39 := rfl
  exact ⟨by omega, 0x30, List.mem_cons_self, by omega⟩

end Text

namespace Numeral

/-- A decimal digit of any alphabet. -/
structure Digit where
  char : Char
  value : Nat
  isDigit : Text.IsDigit char value

inductive Sign where
  | none
  | plus
  | minus

def Sign.text : Sign → List Char
  | none => []
  | plus => ['+']
  | minus => ['-']

def Sign.apply : Sign → Nat → Int
  | minus, n => -n
  | none, n | plus, n => n

/-- Digits after others, each with or without an underscore in front. -/
def moreDigits (rest : List (Bool × Digit)) : List Char :=
  rest.flatMap fun x => if x.1 then ['_', x.2.char] else [x.2.char]

/-- A numeral taken apart. -/
structure Spelling where
  before : List Char
  sign : Sign
  first : Digit
  rest : List (Bool × Digit)
  after : List Char
  before_blank : ∀ c ∈ before, Text.isBlank c = true
  after_blank : ∀ c ∈ after, Text.isBlank c = true

namespace Spelling

def text (w : Spelling) : String :=
  String.ofList (w.before ++ (w.sign.text ++ w.first.char :: moreDigits w.rest) ++ w.after)

/-- The values of the digits, from left to right. -/
def digits (w : Spelling) : List Nat := w.first.value :: w.rest.map fun x => x.2.value

def value (w : Spelling) : Int := w.sign.apply (Nat.ofDigits 10 w.digits.reverse)

end Spelling

/-- The number of characters that are digits. -/
def digitsIn (cs : List Char) : Nat := cs.countP fun c => (Text.digitValue? c).isSome

/-! ### Digits -/

lemma Digit.digitValue?_char (d : Digit) : Text.digitValue? d.char = some d.value :=
  Text.digitValue?_eq_some_iff.2 d.isDigit

/-- The value so far and the digits that follow. -/
def horner (value : Nat) (ds : List Nat) : Nat := ds.foldl (fun v d => 10 * v + d) value

lemma horner_zero (ds : List Nat) : horner 0 ds = Nat.ofDigits 10 ds.reverse := by
  rw [Nat.ofDigits_eq_foldr, List.foldr_reverse, horner]
  simp only [Nat.cast_id, Nat.add_comm]

lemma moreDigits_cons (x : Bool × Digit) (rest : List (Bool × Digit)) :
    moreDigits (x :: rest) = (if x.1 then ['_', x.2.char] else [x.2.char]) ++ moreDigits rest := rfl

lemma digitsFrom_digit (afterDigit : Bool) (value : Nat) (d : Digit) (cs : List Char) :
    digitsFrom afterDigit value (d.char :: cs) = digitsFrom true (10 * value + d.value) cs := by
  rw [digitsFrom, d.digitValue?_char]

lemma digitsFrom_underscore (value : Nat) (cs : List Char) :
    digitsFrom true value ('_' :: cs) = digitsFrom false value cs := by
  have hnone : Text.digitValue? '_' = none := by decide
  rw [digitsFrom, hnone]
  rfl

lemma digitsFrom_moreDigits (value : Nat) (rest : List (Bool × Digit)) :
    digitsFrom true value (moreDigits rest) =
      some (horner value (rest.map fun x => x.2.value)) := by
  induction rest generalizing value with
  | nil => rfl
  | cons x rest ih =>
    obtain ⟨marked, d⟩ := x
    rw [moreDigits_cons]
    cases marked with
    | false => exact (digitsFrom_digit true value d _).trans (ih _)
    | true =>
      exact (digitsFrom_underscore value _).trans ((digitsFrom_digit false value d _).trans (ih _))

/-- What is read to the end is a sequence of digits. Its first digit has no underscore in front
unless another digit stands before. -/
lemma exists_of_digitsFrom {afterDigit : Bool} {value n : Nat} {cs : List Char}
    (hn : digitsFrom afterDigit value cs = some n) :
    ∃ body, (afterDigit = true ∨ ∃ d rest, body = (false, d) :: rest) ∧ cs = moreDigits body ∧
      n = horner value (body.map fun x => x.2.value) := by
  induction cs generalizing afterDigit value with
  | nil =>
    cases afterDigit with
    | false => cases hn
    | true => exact ⟨[], .inl rfl, rfl, (Option.some.inj hn).symm⟩
  | cons c cs ih =>
    rw [digitsFrom] at hn
    cases hc : Text.digitValue? c with
    | some d =>
      rw [hc] at hn
      obtain ⟨body, _, rfl, rfl⟩ := ih hn
      exact ⟨(false, ⟨c, d, Text.digitValue?_eq_some_iff.1 hc⟩) :: body, .inr ⟨_, _, rfl⟩, rfl, rfl⟩
    | none =>
      rw [hc] at hn
      obtain ⟨hmark, hrest⟩ := Option.ite_none_right_eq_some.1 hn
      simp only [Bool.and_eq_true, decide_eq_true_eq] at hmark
      obtain ⟨rfl, rfl⟩ := hmark
      obtain ⟨body, hbody | ⟨d, rest, rfl⟩, rfl, rfl⟩ := ih hrest
      · cases hbody
      · exact ⟨(true, d) :: rest, .inl rfl, rfl, rfl⟩

lemma magnitude?_eq_some_iff {cs : List Char} {n : Nat} :
    magnitude? cs = some n ↔ ∃ (d : Digit) (rest : _), cs = d.char :: moreDigits rest ∧
      n = Nat.ofDigits 10 (d.value :: rest.map fun x => x.2.value).reverse := by
  simp only [← horner_zero]
  constructor
  · intro hn
    obtain ⟨body, hbody | ⟨d, rest, rfl⟩, rfl, rfl⟩ := exists_of_digitsFrom hn
    · cases hbody
    · exact ⟨d, rest, rfl, rfl⟩
  · rintro ⟨d, rest, rfl, rfl⟩
    exact (digitsFrom_digit false 0 d _).trans (digitsFrom_moreDigits _ rest)

/-! ### Signs -/

lemma Digit.char_ne {c : Char} (d : Digit) (hc : Text.digitValue? c = none) : d.char ≠ c := by
  rintro rfl
  cases d.digitValue?_char.symm.trans hc

lemma signed?_minus (cs : List Char) :
    signed? ('-' :: cs) = (magnitude? cs).map Sign.minus.apply := by
  rw [signed?, if_pos rfl]
  cases magnitude? cs <;> rfl

lemma signed?_plus (cs : List Char) :
    signed? ('+' :: cs) = (magnitude? cs).map Sign.plus.apply := by
  rw [signed?, if_neg (by decide), if_pos rfl]
  cases magnitude? cs <;> rfl

lemma signed?_none {c : Char} (hminus : c ≠ '-') (hplus : c ≠ '+') (cs : List Char) :
    signed? (c :: cs) = (magnitude? (c :: cs)).map Sign.none.apply := by
  rw [signed?, if_neg hminus, if_neg hplus]
  cases magnitude? (c :: cs) <;> rfl

/-- Every text starts with one of the signs, and what is read is read behind it. -/
lemma exists_signed? (cs : List Char) : ∃ (sign : Sign) (unsigned : List Char),
    cs = sign.text ++ unsigned ∧ signed? cs = (magnitude? unsigned).map sign.apply := by
  cases cs with
  | nil => exact ⟨.none, [], rfl, rfl⟩
  | cons c cs =>
    by_cases hminus : c = '-'
    · subst hminus
      exact ⟨.minus, cs, rfl, signed?_minus cs⟩
    · by_cases hplus : c = '+'
      · subst hplus
        exact ⟨.plus, cs, rfl, signed?_plus cs⟩
      · exact ⟨.none, c :: cs, rfl, signed?_none hminus hplus cs⟩

lemma signed?_text (sign : Sign) (d : Digit) (cs : List Char) :
    signed? (sign.text ++ d.char :: cs) = (magnitude? (d.char :: cs)).map sign.apply := by
  cases sign with
  | none => exact signed?_none (d.char_ne (by decide)) (d.char_ne (by decide)) cs
  | plus => exact signed?_plus _
  | minus => exact signed?_minus _

lemma signed?_eq_some_iff {cs : List Char} {n : Int} :
    signed? cs = some n ↔ ∃ (sign : Sign) (d : Digit) (rest : _),
      cs = sign.text ++ d.char :: moreDigits rest ∧
      n = sign.apply (Nat.ofDigits 10 (d.value :: rest.map fun x => x.2.value).reverse) := by
  constructor
  · intro hn
    obtain ⟨sign, unsigned, rfl, hread⟩ := exists_signed? cs
    obtain ⟨m, hm, rfl⟩ := Option.map_eq_some_iff.1 (hread.symm.trans hn)
    obtain ⟨d, rest, rfl, rfl⟩ := magnitude?_eq_some_iff.1 hm
    exact ⟨sign, d, rest, rfl, rfl⟩
  · rintro ⟨sign, d, rest, rfl, rfl⟩
    rw [signed?_text, magnitude?_eq_some_iff.2 ⟨d, rest, rfl, rfl⟩, Option.map_some]

/-! ### Whole numerals -/

lemma Digit.isBlank_char (d : Digit) : Text.isBlank d.char = false :=
  d.isDigit.isBlank

/-- A sequence of digits ends with a digit. -/
lemma exists_getLast?_moreDigits (d : Digit) (rest : List (Bool × Digit)) :
    ∃ e : Digit, (d.char :: moreDigits rest).getLast? = some e.char := by
  induction rest generalizing d with
  | nil => exact ⟨d, rfl⟩
  | cons x rest ih =>
    obtain ⟨marked, e⟩ := x
    obtain ⟨last, hlast⟩ := ih e
    cases marked with
    | false => exact ⟨last, by simpa [moreDigits_cons] using hlast⟩
    | true => exact ⟨last, by simpa [moreDigits_cons] using hlast⟩

lemma trimBlanks_text (w : Spelling) :
    Text.trimBlanks w.text.toList = w.sign.text ++ w.first.char :: moreDigits w.rest := by
  rw [Spelling.text, String.toList_ofList]
  apply Text.trimBlanks_eq w.before_blank w.after_blank
  · intro c hc
    cases hsign : w.sign with
    | none =>
      rw [hsign] at hc
      cases hc
      exact w.first.isBlank_char
    | plus =>
      rw [hsign] at hc
      cases hc
      decide
    | minus =>
      rw [hsign] at hc
      cases hc
      decide
  · intro c hc
    obtain ⟨e, he⟩ := exists_getLast?_moreDigits w.first w.rest
    rw [List.getLast?_append, he] at hc
    cases hc
    exact e.isBlank_char

/-- Reading accepts the texts of spellings and no others, and finds their values. -/
lemma parse?_eq_some_iff {s : String} {n : Int} :
    parse? s = some n ↔ ∃ w : Spelling, w.text = s ∧ w.value = n := by
  rw [parse?, signed?_eq_some_iff]
  constructor
  · rintro ⟨sign, d, rest, hcore, rfl⟩
    obtain ⟨before, after, hbefore, hafter, hs⟩ := Text.exists_trimBlanks s.toList
    refine ⟨⟨before, sign, d, rest, after, hbefore, hafter⟩, ?_, rfl⟩
    rw [Spelling.text, ← hcore, ← hs, String.ofList_toList]
  · rintro ⟨w, rfl, rfl⟩
    exact ⟨w.sign, w.first, w.rest, trimBlanks_text w, rfl⟩

/-! ### How many digits there are -/

lemma digitsIn_cons (c : Char) (cs : List Char) :
    digitsIn (c :: cs) = digitsIn cs + if (Text.digitValue? c).isSome then 1 else 0 :=
  List.countP_cons

lemma digitsIn_append (cs ds : List Char) : digitsIn (cs ++ ds) = digitsIn cs + digitsIn ds :=
  List.countP_append

lemma digitsIn_blanks {cs : List Char} (hcs : ∀ c ∈ cs, Text.isBlank c = true) :
    digitsIn cs = 0 := by
  apply List.countP_eq_zero.2
  intro c hc hdigit
  obtain ⟨d, hd⟩ := Option.isSome_iff_exists.1 hdigit
  cases (Text.digitValue?_eq_some_iff.1 hd).isBlank.symm.trans (hcs c hc)

lemma Sign.digitsIn_text (sign : Sign) : digitsIn sign.text = 0 := by
  cases sign <;> decide

/-- All digits of what can be read are counted. -/
lemma digitCount?_of_digitsFrom {afterDigit : Bool} {value n : Nat} {cs : List Char}
    (hn : digitsFrom afterDigit value cs = some n) (count : Nat) :
    digitCount? afterDigit count cs = some (count + digitsIn cs) := by
  induction cs generalizing afterDigit value count with
  | nil =>
    cases afterDigit with
    | false => cases hn
    | true => rfl
  | cons c cs ih =>
    rw [digitsFrom] at hn
    rw [digitCount?, digitsIn_cons]
    cases hc : Text.digitValue? c with
    | some d =>
      rw [hc] at hn
      simp only [Option.isSome_some, if_true, ih hn]
      congr 1
      omega
    | none =>
      rw [hc] at hn
      obtain ⟨hmark, hrest⟩ := Option.ite_none_right_eq_some.1 hn
      simp only [Bool.and_eq_true, decide_eq_true_eq] at hmark
      simp [hmark.1, hmark.2, ih hrest]

/-- No more digits are counted than there are. -/
lemma digitCount?_le {afterDigit : Bool} {count m : Nat} {cs : List Char}
    (hm : digitCount? afterDigit count cs = some m) : m ≤ count + digitsIn cs := by
  induction cs generalizing afterDigit count with
  | nil =>
    obtain ⟨_, hcount⟩ := Option.ite_none_right_eq_some.1 hm
    exact (Option.some.inj hcount).ge
  | cons c cs ih =>
    rw [digitCount?] at hm
    rw [digitsIn_cons]
    by_cases hc : (Text.digitValue? c).isSome = true
    · rw [if_pos hc] at hm ⊢
      have hle := ih hm
      omega
    · rw [if_neg hc] at hm ⊢
      by_cases hmark : c = '_'
      · rw [if_pos hmark] at hm
        exact ih (Option.ite_none_right_eq_some.1 hm).2
      · rw [if_neg hmark] at hm
        have hcount := Option.some.inj (Option.ite_none_right_eq_some.1 hm).2
        omega

lemma unsigned_sublist (cs : List Char) : (unsigned cs).Sublist cs := by
  cases cs with
  | nil => exact .slnil
  | cons c cs =>
    rw [unsigned]
    split
    · exact List.sublist_cons_self c cs
    · exact .refl _

lemma unsigned_text (sign : Sign) (d : Digit) (cs : List Char) :
    unsigned (sign.text ++ d.char :: cs) = d.char :: cs := by
  cases sign with
  | none =>
    have hminus : d.char ≠ '-' := d.char_ne (by decide)
    have hplus : d.char ≠ '+' := d.char_ne (by decide)
    simp [Sign.text, unsigned, hminus, hplus]
  | plus => rfl
  | minus => rfl

lemma excess?_eq_none {s : String} (hs : digitsIn s.toList ≤ ReadFault.digitLimit) :
    excess? s = none := by
  rw [excess?, Option.filter_eq_none_iff]
  intro m hm
  have hle := digitCount?_le hm
  have hsub := ((unsigned_sublist _).trans (Text.trimBlanks_sublist s.toList)).countP_le
    (p := fun c => (Text.digitValue? c).isSome)
  simp only [decide_eq_true_eq, digitsIn] at *
  omega

lemma excess?_text (w : Spelling) :
    excess? w.text = none ↔ digitsIn w.text.toList ≤ ReadFault.digitLimit := by
  refine ⟨fun hnone => ?_, excess?_eq_none⟩
  have hread := (magnitude?_eq_some_iff.2 ⟨w.first, w.rest, rfl, rfl⟩)
  have hcount := digitCount?_of_digitsFrom hread 0
  rw [excess?, trimBlanks_text, unsigned_text, hcount, Option.filter_eq_none_iff] at hnone
  have hall : digitsIn w.text.toList = digitsIn (w.first.char :: moreDigits w.rest) := by
    rw [Spelling.text, String.toList_ofList, digitsIn_append, digitsIn_append, digitsIn_append,
      digitsIn_blanks w.before_blank, digitsIn_blanks w.after_blank, w.sign.digitsIn_text]
    omega
  have hlimit := hnone _ rfl
  rw [decide_eq_true_eq] at hlimit
  omega

/-! ### Printed integers -/

lemma digitsFrom_of_isDigit {cs : List Char} (hcs : ∀ c ∈ cs, c.isDigit = true) (value : Nat) :
    digitsFrom true value cs = some (Nat.ofDigitChars 10 cs value) := by
  induction cs generalizing value with
  | nil => rfl
  | cons c cs ih =>
    obtain ⟨hc, hrest⟩ := List.forall_mem_cons.1 hcs
    rw [digitsFrom, Text.digitValue?_eq_some_iff.2 (Text.isDigit_of_ascii hc),
      Nat.ofDigitChars_cons]
    exact ih hrest _

lemma magnitude?_toDigits (m : Nat) : magnitude? (Nat.toDigits 10 m) = some m := by
  have hdigits : ∀ c ∈ Nat.toDigits 10 m, c.isDigit = true := fun c hc =>
    Nat.isDigit_of_mem_toDigits (by decide) (by decide) hc
  have hvalue : Nat.ofDigitChars 10 (Nat.toDigits 10 m) 0 = m := Nat.ofDigitChars_ten_toDigits
  cases hm : Nat.toDigits 10 m with
  | nil => exact absurd hm Nat.toDigits_ne_nil
  | cons c cs =>
    rw [hm] at hdigits hvalue
    obtain ⟨hc, hrest⟩ := List.forall_mem_cons.1 hdigits
    rw [magnitude?, digitsFrom, Text.digitValue?_eq_some_iff.2 (Text.isDigit_of_ascii hc)]
    rw [Nat.ofDigitChars_cons] at hvalue
    exact (digitsFrom_of_isDigit hrest _).trans (congrArg some hvalue)

lemma exists_toString (n : Int) : ∃ sign : Sign,
    toString n = String.ofList (sign.text ++ Nat.toDigits 10 n.natAbs) ∧
      sign.apply n.natAbs = n := by
  rw [Int.toString_eq_repr, Int.repr_eq_if]
  by_cases hn : 0 ≤ n
  · have hnat : n.toNat = n.natAbs := by omega
    refine ⟨.none, ?_, Int.natAbs_of_nonneg hn⟩
    rw [if_pos hn, Nat.repr_eq_ofList_toDigits, hnat]
    rfl
  · have hnat : (-n).toNat = n.natAbs := by omega
    refine ⟨.minus, ?_, ?_⟩
    · rw [if_neg hn, Nat.repr_eq_ofList_toDigits, hnat, String.ofList_append]
      rfl
    · simp only [Sign.apply]
      omega

/-- A printed integer is the text of a spelling of it. -/
lemma parse?_toString (n : Int) : parse? (toString n) = some n := by
  obtain ⟨sign, htext, hvalue⟩ := exists_toString n
  obtain ⟨d, rest, hdigits, hm⟩ := magnitude?_eq_some_iff.1 (magnitude?_toDigits n.natAbs)
  rw [parse?_eq_some_iff]
  refine ⟨⟨[], sign, d, rest, [], by simp, by simp⟩, ?_, ?_⟩
  · rw [htext, hdigits, Spelling.text, List.nil_append, List.append_nil]
  · rw [← hvalue, hm]
    rfl

lemma digitsIn_toString_le (n : Int) (hn : n.natAbs < 10 ^ ReadFault.digitLimit) :
    digitsIn (toString n).toList ≤ ReadFault.digitLimit := by
  obtain ⟨sign, htext, _⟩ := exists_toString n
  have hlength := (Nat.length_toDigits_le_iff (by decide) (by decide)).2 hn
  rw [htext, String.toList_ofList, digitsIn_append, sign.digitsIn_text, Nat.zero_add]
  exact List.countP_le_length.trans hlength

/-- Zeros in front of the digits count for nothing. -/
lemma Spelling.value_eq {w w' : Spelling} (hsign : w'.sign = w.sign) {zeros : Nat}
    (hdigits : w'.digits = List.replicate zeros 0 ++ w.digits) : w'.value = w.value := by
  rw [Spelling.value, Spelling.value, hsign, hdigits, List.reverse_append, List.reverse_replicate,
    Nat.ofDigits_append_replicate_zero]

/-- Apart from the limit on their number, digits are read exactly if the text is that of a spelling:
blanks, at most one sign, and right behind it digits with single underscores between them. They are
read to their value with the sign. Below the limit everything else is refused as no numeral, and
above it nothing is read. So a printed integer is read back, and neither blanks, underscores,
leading zeros nor the alphabet of the digits make a difference; the digits of ASCII, the
Arabic-Indic and the full-width ones are among them. -/
theorem numerals_read_exactly :
    (∀ s n, parse? s = some n ↔ ∃ w : Spelling, w.text = s ∧ w.value = n) ∧
    (∀ s n, read s = .ok n ↔
      parse? s = some n ∧ digitsIn s.toList ≤ ReadFault.digitLimit) ∧
    (∀ s, parse? s = none → ∃ fault, read s = .error fault ∧
      (digitsIn s.toList ≤ ReadFault.digitLimit → fault = .numeral s)) ∧
    (∀ n : Int, parse? (toString n) = some n ∧
      (n.natAbs < 10 ^ ReadFault.digitLimit → read (toString n) = .ok n)) ∧
    (∀ w w' : Spelling, w'.sign = w.sign →
      ∀ zeros, w'.digits = List.replicate zeros 0 ++ w.digits → parse? w'.text = parse? w.text) ∧
    ∀ z ∈ [0x30, 0x660, 0xff10], ∀ d < 10, Text.IsDigit (Char.ofNat (z + d)) d := by
  have hread : ∀ s n, read s = .ok n ↔
      parse? s = some n ∧ digitsIn s.toList ≤ ReadFault.digitLimit := by
    intro s n
    rw [read_eq_ok_iff, and_comm]
    refine and_congr_right fun hn => ?_
    obtain ⟨w, rfl, _⟩ := parse?_eq_some_iff.1 hn
    exact excess?_text w
  refine ⟨fun s n => parse?_eq_some_iff, hread, ?_, ?_, ?_, ?_⟩
  · intro s hs
    cases hexcess : excess? s with
    | none => exact ⟨.numeral s, by rw [read, hexcess, hs], fun _ => rfl⟩
    | some digits =>
      refine ⟨.longNumeral digits, by rw [read, hexcess], fun hle => ?_⟩
      rw [excess?_eq_none hle] at hexcess
      cases hexcess
  · intro n
    have hprinted := parse?_toString n
    exact ⟨hprinted, fun hn => (hread _ n).2 ⟨hprinted, digitsIn_toString_le n hn⟩⟩
  · intro w w' hsign zeros hdigits
    rw [parse?_eq_some_iff.2 ⟨w, rfl, rfl⟩, parse?_eq_some_iff.2 ⟨w', rfl, rfl⟩,
      Spelling.value_eq hsign hdigits]
  · have hvalue : ∀ z ∈ [0x30, 0x660, 0xff10], ∀ d < 10,
        Text.digitValue? (Char.ofNat (z + d)) = some d := by decide +kernel
    exact fun z hz d hd => Text.digitValue?_eq_some_iff.1 (hvalue z hz d hd)

/-- Minus forty-two, as plainly as it can be written. -/
def plain : Spelling where
  before := []
  sign := .minus
  first := ⟨'4', 4, by decide, 0x30, by decide, rfl⟩
  rest := [(false, ⟨'2', 2, by decide, 0x30, by decide, rfl⟩)]
  after := []
  before_blank := List.forall_mem_nil _
  after_blank := List.forall_mem_nil _

/-- The same between blanks, with a full-width zero, an underscore and an Arabic-Indic four. -/
def mixed : Spelling where
  before := ['\u00a0']
  sign := .minus
  first := ⟨'０', 0, by decide, 0xff10, by decide, rfl⟩
  rest := [(true, ⟨'٤', 4, by decide, 0x660, by decide, rfl⟩),
    (false, ⟨'2', 2, by decide, 0x30, by decide, rfl⟩)]
  after := [' ']
  before_blank := List.forall_mem_singleton.2 (by decide)
  after_blank := List.forall_mem_singleton.2 (by decide)

theorem numerals_read_exactly_mixed :
    mixed.text = "\u00a0-０_٤2 " ∧ mixed.value = -42 ∧ parse? mixed.text = some (-42) ∧
      read mixed.text = .ok (-42) ∧ parse? mixed.text = parse? plain.text ∧
      read (toString (-42 : Int)) = .ok (-42) ∧
      parse? "4__2" = none ∧ read "4__2" = .error (.numeral "4__2") ∧ Text.IsDigit '٤' 4 := by
  obtain ⟨hparse, hread, hrefuse, hprinted, halike, hdigits⟩ := numerals_read_exactly
  have hvalue : parse? mixed.text = some (-42) := (hparse _ _).2 ⟨mixed, rfl, by decide⟩
  have hnone : parse? "4__2" = none := by decide
  obtain ⟨fault, hfault, hwhy⟩ := hrefuse "4__2" hnone
  have hsmall : (-42 : Int).natAbs < 10 ^ ReadFault.digitLimit :=
    (by decide : 42 < 10 ^ 2).trans_le (Nat.pow_le_pow_right (by decide) (by decide))
  refine ⟨by decide, by decide, hvalue, (hread _ _).2 ⟨hvalue, by decide⟩,
    halike plain mixed rfl 1 rfl, (hprinted (-42)).2 hsmall, hnone, ?_,
    hdigits 0x660 (by decide) 4 (by decide)⟩
  rw [hfault, hwhy (by decide)]

/-- Every digit is of one of the alphabets with these zeros. -/
def Spelling.Within (zeros : List Nat) (w : Spelling) : Prop :=
  ∀ d ∈ w.first :: w.rest.map Prod.snd, ∃ z ∈ zeros, d.char.toNat = z + d.value

/-- The digits of ASCII, the Arabic-Indic and the full-width ones are not all that are read: here is
a Devanagari five. -/
theorem digit_of_other_alphabet_read :
    read "५" = .ok 5 ∧ ¬ ∃ w : Spelling, w.Within [0x30, 0x660, 0xff10] ∧ w.text = "५" := by
  refine ⟨by decide, ?_⟩
  rintro ⟨w, hwithin, htext⟩
  have hmem : w.first.char ∈ w.text.toList := by simp [Spelling.text]
  have hchar : w.first.char = '५' := by simpa [htext] using hmem
  have hcode : '५'.toNat = 0x96b := rfl
  obtain ⟨hsmall, -⟩ := w.first.isDigit
  obtain ⟨z, hz, hzero⟩ := hwithin w.first List.mem_cons_self
  rw [hchar, hcode] at hzero
  simp only [List.mem_cons, List.not_mem_nil, or_false] at hz
  omega

end Numeral

end MiniJava
