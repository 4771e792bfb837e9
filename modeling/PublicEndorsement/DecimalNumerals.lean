import Mathlib.Data.List.TakeWhile
import Mathlib.Data.Nat.Digits.Defs
import Mathlib.Tactic

/-!
# Decimal numerals

Texts over any alphabet whose characters have codes, with the digits where ASCII has
them. The leading digit of a numeral comes first, and leading zeros are allowed.
-/

namespace PublicEndorsement.Numerals

variable {α : Type} (code : α → ℕ)

def isDigit (c : α) : Bool := decide (48 ≤ code c ∧ code c ≤ 57)

def value (s : List α) : ℕ := Nat.ofDigits 10 (s.map (fun c => code c - 48)).reverse

def IsNumeral (s : List α) (n : ℕ) : Prop :=
  s ≠ [] ∧ (∀ c ∈ s, isDigit code c = true) ∧ value code s = n

variable {code}

theorem IsNumeral.takeWhile {s : List α} {n : ℕ} (h : IsNumeral code s n) :
    s.takeWhile (isDigit code) = s := List.takeWhile_eq_self_iff.mpr h.2.1

end PublicEndorsement.Numerals
