import Mathlib.Algebra.Group.Int.Defs
import LiveFeed.Proofs.Escapes
import LiveFeed.Proofs.NumberRange

namespace LiveFeed.Json

/-- Nothing but the four characters that may stand between the parts of a JSON text. -/
def Space (cs : Text) : Prop := ∀ c ∈ cs, c = ' ' ∨ c = '\n' ∨ c = '\t' ∨ c = '\r'

/--
What stands between the marks of a string, and the characters that it spells. Four digits may give
any character below `2 ^ 16`; no character has the number of a surrogate, and those that have a
larger number are given by two surrogates in a row.
-/
inductive Spells : Text → List Char → Prop where
  | nil : Spells [] []
  | plain {c : Char} {t : Text} {cs : List Char} (hquote : c ≠ '"') (hslash : c ≠ '\\')
      (hcontrol : ¬ c.toNat < 0x20) (h : Spells t cs) : Spells (c :: t) (c :: cs)
  | short {e c : Char} {t : Text} {cs : List Char} (he : ShortEscape e c) (h : Spells t cs) :
      Spells ('\\' :: e :: t) (c :: cs)
  | unit {h₁ h₂ h₃ h₄ c : Char} {t : Text} {cs : List Char} (hc : HexUnit h₁ h₂ h₃ h₄ c.toNat)
      (h : Spells t cs) : Spells ('\\' :: 'u' :: h₁ :: h₂ :: h₃ :: h₄ :: t) (c :: cs)
  | pair {h₁ h₂ h₃ h₄ l₁ l₂ l₃ l₄ c : Char} {high low : Nat} {t : Text} {cs : List Char}
      (hhigh : HexUnit h₁ h₂ h₃ h₄ high) (hlow : HexUnit l₁ l₂ l₃ l₄ low)
      (hc : SurrogatePair high low c) (h : Spells t cs) :
      Spells ('\\' :: 'u' :: h₁ :: h₂ :: h₃ :: h₄ :: '\\' :: 'u' :: l₁ :: l₂ :: l₃ :: l₄ :: t)
        (c :: cs)

def IsDigits (ds : List Char) : Prop := ds ≠ [] ∧ ∀ d ∈ ds, d.isDigit = true

namespace Numeral

/-- The point and the digits behind it. -/
inductive WritesFraction : List Char → Text → Prop where
  | none : WritesFraction [] []
  | point {ds : List Char} (h : IsDigits ds) : WritesFraction ds ('.' :: ds)

inductive WritesExponent : Option (Bool × List Char) → Text → Prop where
  | none : WritesExponent none []
  | unsigned {e : Char} {ds : List Char} (he : e = 'e' ∨ e = 'E') (h : IsDigits ds) :
      WritesExponent (some (false, ds)) (e :: ds)
  | plus {e : Char} {ds : List Char} (he : e = 'e' ∨ e = 'E') (h : IsDigits ds) :
      WritesExponent (some (false, ds)) (e :: '+' :: ds)
  | minus {e : Char} {ds : List Char} (he : e = 'e' ∨ e = 'E') (h : IsDigits ds) :
      WritesExponent (some (true, ds)) (e :: '-' :: ds)

/-- How a number is written; a zero in front of the point stands alone. -/
inductive Writes : Numeral → Text → Prop where
  | mk {negative : Bool} {whole fraction : List Char} {exponent : Option (Bool × List Char)}
      {f e : Text} (hwhole : IsDigits whole) (hzero : whole.head? = some '0' → whole.length = 1)
      (hf : WritesFraction fraction f) (he : WritesExponent exponent e) :
      Writes ⟨negative, whole, fraction, exponent⟩
        ((if negative then ['-'] else []) ++ (whole ++ (f ++ e)))

/-- A number without point and exponent that fits 64 bits; minus zero is not among them. -/
def IsInteger (n : Numeral) (i : Int) : Prop :=
  n.fraction = [] ∧ n.exponent = none ∧
    if n.negative then i = -(Nat.ofDigitChars 10 n.whole 0 : Nat) ∧ i ≠ 0 ∧ -(2 ^ 63) ≤ i
    else i = Nat.ofDigitChars 10 n.whole 0 ∧ i < 2 ^ 64

/-- The value of a number: an integer, or else a number in the range of a double. -/
inductive Stands (n : Numeral) : Value → Prop where
  | integer {i : Int} (h : n.IsInteger i) : Stands n (.integer i)
  | fraction (h : ∀ i, ¬ n.IsInteger i) (hrange : n.InRange) : Stands n .fraction

end Numeral

/-- The texts of the values that hold no others. -/
inductive Scalar : Text → Value → Prop where
  | null : Scalar ['n', 'u', 'l', 'l'] .null
  | true : Scalar ['t', 'r', 'u', 'e'] (.boolean true)
  | false : Scalar ['f', 'a', 'l', 's', 'e'] (.boolean false)
  | number {n : Numeral} {t : Text} {v : Value} (h : n.Writes t) (hv : n.Stands v) : Scalar t v
  | string {t : Text} {cs : List Char} (h : Spells t cs) :
      Scalar ('"' :: (t ++ ['"'])) (.string (String.ofList cs))

/-- What stands in front of a part: space, and a comma unless it is the first. -/
inductive Lead : (first : Bool) → Text → Prop where
  | first {s : Text} (hs : Space s) : Lead true s
  | comma {s s' : Text} (hs : Space s) (hs' : Space s') : Lead false (s ++ ',' :: s')

/-- What stands between two brackets, or behind a part between them: parts, and then space. -/
inductive Parts {α : Type} (part : Text → α → Prop) : (first : Bool) → Text → List α → Prop where
  | nil {first : Bool} {s : Text} (hs : Space s) : Parts part first s []
  | cons {first : Bool} {u t more : Text} {a : α} {as : List α} (hu : Lead first u) (h : part t a)
      (hmore : Parts part false more as) : Parts part first (u ++ (t ++ more)) (a :: as)

/-- A value behind its name and a colon. -/
inductive Member {α : Type} (part : Text → α → Prop) : Text → String × α → Prop where
  | mk {key s s' t : Text} {cs : List Char} {a : α} (hkey : Spells key cs) (hs : Space s)
      (hs' : Space s') (h : part t a) :
      Member part ('"' :: (key ++ '"' :: (s ++ ':' :: (s' ++ t)))) (String.ofList cs, a)

/-- A scalar, or a container whose parts are such texts. -/
inductive Composed (part : Text → Value → Prop) : Text → Value → Prop where
  | scalar {t : Text} {v : Value} (h : Scalar t v) : Composed part t v
  | array {t : Text} {items : List Value} (h : Parts part true t items) :
      Composed part ('[' :: (t ++ [']'])) (.array items)
  | object {t : Text} {members : List (String × Value)} (h : Parts (Member part) true t members) :
      Composed part ('{' :: (t ++ ['}'])) (.object members)

/-- A text is a value in which no more than `depth` containers stand in each other. -/
def IsValue : (depth : Nat) → Text → Value → Prop
  | 0 => Scalar
  | depth + 1 => Composed (IsValue depth)

/-- A whole JSON text. -/
def Document (depth : Nat) (text : Text) (v : Value) : Prop :=
  ∃ s t s', Space s ∧ IsValue depth t v ∧ Space s' ∧ text = s ++ (t ++ s')

end LiveFeed.Json
