import Mathlib.Algebra.Order.Ring.Nat
import Mathlib.Data.List.DropRight

/-!
# Strings of Python

A `str` is a list of code points. Which of them are white space, which are decimal digits and what
they are in lower case depends on the Unicode tables of the interpreter; they are a parameter, of
which only the part for ASCII is fixed (`Unicode`).
-/

/-- A `str`. -/
abbrev PyString := List Char

namespace PyString

/-- The code points of a literal. -/
def lit (s : String) : PyString := s.toList

/-! ### Unicode tables -/

/-- `str.isspace` on ASCII. -/
def asciiSpace (c : Char) : Bool := (9 ≤ c.toNat && c.toNat ≤ 13) || (28 ≤ c.toNat && c.toNat ≤ 32)

/-- The value of an ASCII digit. -/
def asciiDigit (c : Char) : Option ℕ :=
  if 48 ≤ c.toNat ∧ c.toNat ≤ 57 then some (c.toNat - 48) else none

/-- The tables of the interpreter. -/
structure Unicode where
  isSpace : Char → Bool
  digit : Char → Option ℕ
  lower : Char → PyString
  isSpace_ascii : ∀ c : Char, c.toNat < 128 → isSpace c = asciiSpace c
  digit_ascii : ∀ c : Char, c.toNat < 128 → digit c = asciiDigit c
  lower_ascii : ∀ c : Char, c.toNat < 128 → lower c = [c.toLower]
  digit_lt : ∀ c d, digit c = some d → d < 10

variable {d : ℕ}

theorem asciiDigit_lt {c : Char} (h : asciiDigit c = some d) :
  d < 10
  := by
  rw [asciiDigit, Option.ite_none_right_eq_some, Option.some.injEq] at h
  omega

/-- Tables that know ASCII only. -/
def Unicode.ascii : Unicode where
  isSpace := asciiSpace
  digit := asciiDigit
  lower c := [c.toLower]
  isSpace_ascii _ _ := rfl
  digit_ascii _ _ := rfl
  lower_ascii _ _ := rfl
  digit_lt _ _ := asciiDigit_lt

/-! ### Functions -/

section Functions

variable (u : Unicode)

def strip (s : PyString) : PyString := (s.dropWhile u.isSpace).rdropWhile u.isSpace

def lower (s : PyString) : PyString := s.flatMap u.lower

/-- `str.split` at a character. -/
def split (separator : Char) (s : PyString) : List PyString := s.splitOn separator

/-- The number of further digits, among which there may be single underscores. -/
def digitsFrom (n : ℕ) : PyString → Option ℕ
  | [] => some n
  | '_' :: c :: s => (u.digit c).bind (fun d => digitsFrom (10 * n + d) s)
  | c :: s => (u.digit c).bind (fun d => digitsFrom (10 * n + d) s)

def digits : PyString → Option ℕ
  | [] => none
  | c :: s => (u.digit c).bind (fun d => digitsFrom u d s)

/-- `int` of a string. -/
def int (s : PyString) : Option ℤ :=
  match strip u s with
  | '-' :: s => (digits u s).map (fun n => -(n : ℤ))
  | '+' :: s => (digits u s).map (fun n => (n : ℤ))
  | s => (digits u s).map (fun n => (n : ℤ))

end Functions

example :
  (int Unicode.ascii (lit " -1_0\n"), int Unicode.ascii (lit "1__0"), int Unicode.ascii (lit "")) =
    (some (-10), none, none)
  := by decide +kernel

/-! ### Numbers of a fixed width -/

/-- The last digits of a number. For a number that has no more digits than that, this is what it
is formatted as with leading zeros. -/
def padded : (width : ℕ) → (n : ℕ) → PyString
  | 0, _ => []
  | width + 1, n => Nat.digitChar (n / 10 ^ width % 10) :: padded width n

@[simp]
theorem length_padded (width n : ℕ) :
  (padded width n).length = width
  := by
  induction width with
  | zero => rfl
  | succ width ih => rw [padded, List.length_cons, ih]

theorem forall_digit {P : ℕ → Prop} (h : ∀ d : Fin 10, P d) (hd : d < 10) :
  P d
  := h ⟨d, hd⟩

theorem digit_digitChar (u : Unicode) (hd : d < 10) :
  u.digit (Nat.digitChar d) = some d
  := by
  have hascii : d.digitChar.toNat < 128 ∧ asciiDigit d.digitChar = some d :=
    forall_digit (P := fun d => d.digitChar.toNat < 128 ∧ asciiDigit d.digitChar = some d)
      (by decide +kernel) hd
  rw [u.digit_ascii _ hascii.1, hascii.2]

theorem isSpace_digitChar (u : Unicode) (hd : d < 10) :
  u.isSpace (Nat.digitChar d) = false
  := by
  have hascii : d.digitChar.toNat < 128 ∧ asciiSpace d.digitChar = false :=
    forall_digit (P := fun d => d.digitChar.toNat < 128 ∧ asciiSpace d.digitChar = false)
      (by decide +kernel) hd
  rw [u.isSpace_ascii _ hascii.1, hascii.2]

/-- A string without white space at its ends is stripped to itself. -/
theorem strip_eq_self (u : Unicode) {s : PyString} (hhead : ∀ c ∈ s.head?, u.isSpace c = false)
    (hlast : ∀ c ∈ s.getLast?, u.isSpace c = false) :
  strip u s = s
  := by
  have hdrop : s.dropWhile u.isSpace = s := by
    cases s with
    | nil => rfl
    | cons c s => exact List.dropWhile_cons_of_neg (by simp [hhead c rfl])
  rw [strip, hdrop, List.rdropWhile_eq_self_iff]
  intro hs
  simp [hlast _ (List.getLast?_eq_some_getLast hs)]

end PyString
