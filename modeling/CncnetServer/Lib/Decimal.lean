import Mathlib.Data.Int.Basic

/-!
Signed decimal text: printing an integer and reading one back, as integer types
print and parse themselves. Reading takes an optional sign and at least one
digit; `parseInt_intText` is the round trip.
-/

namespace Decimal

/-- The value of a nonempty string of digits. -/
def parseNat (s : List Char) : Option Nat :=
  if s ≠ [] ∧ s.all Char.isDigit then some (Nat.ofDigitChars 10 s 0) else none

def intText (i : Int) : List Char :=
  if i < 0 then '-' :: Nat.toDigits 10 i.natAbs else Nat.toDigits 10 i.natAbs

def parseInt : List Char → Option Int
  | '-' :: s => (parseNat s).map fun n => -(n : Int)
  | '+' :: s => (parseNat s).map fun n => (n : Int)
  | s => (parseNat s).map fun n => (n : Int)

theorem parseNat_toDigits (n : Nat) : parseNat (Nat.toDigits 10 n) = some n := by
  have hdigit : (Nat.toDigits 10 n).all Char.isDigit = true := by
    rw [List.all_eq_true]
    intro c hc
    exact Nat.isDigit_of_mem_toDigits (by decide) (by decide) hc
  rw [parseNat, if_pos ⟨Nat.toDigits_ne_nil, hdigit⟩]
  rw [Nat.ofDigitChars_toDigits (by decide) (by decide)]

/-- A string of digits is read without a sign. -/
theorem parseInt_of_parseNat {s : List Char} {n : Nat} (h : parseNat s = some n) :
    parseInt s = some (n : Int) := by
  have hs : s.all Char.isDigit = true := by
    unfold parseNat at h
    split at h
    · rename_i hc; exact hc.2
    · cases h
  unfold parseInt
  split
  · simp at hs
  · simp at hs
  · simp [h]

theorem parseInt_intText (i : Int) : parseInt (intText i) = some i := by
  unfold intText
  split
  · rename_i hneg
    have habs : -(i.natAbs : Int) = i := by omega
    have hread : parseInt ('-' :: Nat.toDigits 10 i.natAbs) = some (-(i.natAbs : Int)) := by
      simp [parseInt, parseNat_toDigits]
    rw [hread, habs]
  · rw [parseInt_of_parseNat (parseNat_toDigits _)]
    simp only [Option.some.injEq]
    omega

end Decimal
