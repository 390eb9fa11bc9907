import MiniJava.ReadFault
import MiniJava.Text.Blank
import MiniJava.Text.Digit

/-!
# Decimal numerals

A numeral is an optional sign followed by digits; single underscores may stand between digits, and
blanks around the whole. The digits are counted before they are read, and too many are refused,
whatever follows them.
-/

namespace MiniJava.Numeral

/-- Reads the rest of a digit sequence, given whether it stands right after a digit and the value of
the digits read so far. -/
def digitsFrom (afterDigit : Bool) (value : Nat) : List Char → Option Nat
  | [] => if afterDigit then some value else none
  | c :: rest =>
    match Text.digitValue? c with
    | some d => digitsFrom true (10 * value + d) rest
    | none => if c = '_' && afterDigit then digitsFrom false value rest else none

/-- The value of a non-empty digit sequence. -/
def magnitude? (cs : List Char) : Option Nat :=
  digitsFrom false 0 cs

/-- The value of an optional sign and a digit sequence. -/
def signed? : List Char → Option Int
  | [] => none
  | c :: rest =>
    if c = '-' then (magnitude? rest).map fun n => -(n : Int)
    else if c = '+' then (magnitude? rest).map fun n => (n : Int)
    else (magnitude? (c :: rest)).map fun n => (n : Int)

/-- The value of a numeral. -/
def parse? (s : String) : Option Int :=
  signed? (Text.trimBlanks s.toList)

/-- The text after an optional sign. -/
def unsigned : List Char → List Char
  | [] => []
  | c :: rest => if c = '-' || c = '+' then rest else c :: rest

/-- The number of digits in the digit sequence at the start of a text, given whether the text stands
right after a digit and the number of digits before it. -/
def digitCount? (afterDigit : Bool) (count : Nat) : List Char → Option Nat
  | [] => if afterDigit then some count else none
  | c :: rest =>
    if (Text.digitValue? c).isSome then digitCount? true (count + 1) rest
    else if c = '_' then if afterDigit then digitCount? false count rest else none
    else if afterDigit then some count else none

/-- The number of digits that a text starts with, if there are too many. -/
def excess? (s : String) : Option Nat :=
  (digitCount? false 0 (unsigned (Text.trimBlanks s.toList))).filter (ReadFault.digitLimit < ·)

/-- Reads a numeral or says why there is none. -/
def read (s : String) : Except ReadFault Int :=
  match excess? s with
  | some digits => .error (.longNumeral digits)
  | none =>
    match parse? s with
    | some n => .ok n
    | none => .error (.numeral s)

theorem read_eq_ok_iff {s : String} {n : Int} :
    read s = .ok n ↔ excess? s = none ∧ parse? s = some n := by
  unfold read
  cases excess? s <;> cases parse? s <;> simp

end MiniJava.Numeral
