import Wiring.Json.Decode
import Wiring.Json.Value

/-!
# Whole numbers are read back

A whole number is written by its decimal digits, the first of which is no zero unless
it is the only one, so that the reader collects exactly these digits.
-/

namespace Wiring.Json

open Decimal (Binary64)

/-! ## What a number is read as -/

/-- The number that a reader takes a written one for: a negative whole number that does
not fit a word with a sign is read as a binary64 number. -/
def Number.stored : Number → Number
  | .integer value =>
      if value < -Word.signedCount then
        .real { (Binary64.ofRatio false value.natAbs 1).getD (.zero false) with
          isNegative := true }
      else .integer value
  | .real value => .real value

/-- Whether a number is whole and, but for its sign, fits a word. -/
def Number.isWord : Number → Bool
  | .integer value => value.natAbs < Word.count
  | .real _ => false

theorem Number.stored_natural (value : Nat) :
    (Number.integer value).stored = .integer value := by
  simp [Number.stored]

/-! ## Digits -/

/-- Whether a character right behind digits would belong to their number. -/
def continuesNumber (c : Char) : Bool := c.isDigit || c = '.' || c = 'e' || c = 'E'

theorem spanDigits_append {digits rest : List Char} (hdigits : ∀ c ∈ digits, c.isDigit = true)
    (hrest : rest.head?.any Char.isDigit = false) :
    spanDigits (digits ++ rest) = (digits, rest) := by
  have hstop : rest.takeWhile Char.isDigit = [] ∧ rest.dropWhile Char.isDigit = rest := by
    cases rest with
    | nil => simp
    | cons c rest => simp_all
  simp [spanDigits, List.takeWhile_append_of_pos hdigits, List.dropWhile_append_of_pos hdigits,
    hstop]

theorem isDigit_of_mem_digits {n : Nat} {c : Char} (hc : c ∈ Nat.toDigits 10 n) :
    c.isDigit = true :=
  Nat.isDigit_of_mem_toDigits (by decide) (by decide) hc

/-- A number other than zero does not start with a zero. -/
theorem head?_toDigits_ne {n : Nat} (hn : n ≠ 0) : (Nat.toDigits 10 n).head? ≠ some '0' := by
  induction n using Nat.strongRecOn with
  | _ n ih =>
      rw [Nat.toDigits_eq_if (by decide)]
      split
      next => simpa using hn
      next hlarge =>
        have hquotient := ih (n / 10) (by omega) (by omega)
        cases hdigits : Nat.toDigits 10 (n / 10) with
        | nil => exact absurd hdigits Nat.toDigits_ne_nil
        | cons c digits => simpa [hdigits] using hquotient

/-- Digits are added up while the number stays within the limit. -/
theorem takeDigits_eq {limit : Nat} {digits : List Char} {value : Nat}
    (hlimit : Nat.ofDigitChars 10 digits value ≤ limit) :
    takeDigits limit value digits = (Nat.ofDigitChars 10 digits value, []) := by
  induction digits generalizing value with
  | nil => simp [takeDigits]
  | cons c digits ih =>
      have hnext : value * 10 + Text.digitValue c = 10 * value + (c.toNat - '0'.toNat) := by
        rw [Text.digitValue, Nat.mul_comm]
      rw [Nat.ofDigitChars_cons, ← hnext] at hlimit ⊢
      -- further digits only make the number larger, so this one is within the limit too
      have hgrows : value * 10 + Text.digitValue c ≤ limit := by
        rw [Nat.ofDigitChars_eq_ofDigitChars_zero] at hlimit
        have := Nat.le_mul_of_pos_left (value * 10 + Text.digitValue c)
          (Nat.pow_pos (n := digits.length) (show 0 < 10 by decide))
        omega
      rw [takeDigits]
      simp only [Nat.not_lt.mpr hgrows, if_false]
      exact ih hlimit

/-! ## Numerals -/

/-- The numeral of a whole number. -/
def Numeral.ofInt (value : Int) : Numeral :=
  { isNegative := value < 0, whole := Nat.toDigits 10 value.natAbs }

theorem Numeral.value_ofInt {value : Int} (hvalue : value.natAbs < Word.count) :
    (Numeral.ofInt value).value = .ok (Number.integer value).stored := by
  have htake : takeDigits Numeral.wordLimit 0 (Nat.toDigits 10 value.natAbs) =
      (value.natAbs, []) := by
    have hdigits : Nat.ofDigitChars 10 (Nat.toDigits 10 value.natAbs) 0 = value.natAbs :=
      Nat.ofDigitChars_ten_toDigits
    rw [takeDigits_eq (by rw [hdigits, Numeral.wordLimit]; omega), hdigits]
  by_cases hnegative : value < 0
  · have hsigned : Word.signedCount < value.natAbs ↔ value < -Word.signedCount := by omega
    have hself : -(value.natAbs : Int) = value := by omega
    have hzero : value ≠ 0 := by omega
    simp only [Numeral.value, Numeral.ofInt, Number.stored, htake, hnegative, hsigned, hself,
      decide_true, if_true, Int.natAbs_eq_zero, hzero, false_or]
    split <;> rfl
  · have hself : (value.natAbs : Int) = value := by omega
    have hsigned : ¬ value < -Word.signedCount := by omega
    simp [Numeral.value, Numeral.ofInt, Number.stored, htake, hnegative, hsigned, hself]

theorem Numeral.read_ofInt {value : Int} (hvalue : value.natAbs < Word.count)
    (rest : List Char) :
    (Numeral.ofInt value).read rest = .ok (Number.integer value).stored := by
  rw [Numeral.read, Numeral.value_ofInt hvalue]
  rfl

/-- The digits of a whole number are scanned up to what does not belong to it. -/
theorem scanNumber_toDigits (start : List Char) (value : Int) {rest : List Char}
    (hrest : rest.head?.any continuesNumber = false) :
    scanNumber start (value < 0) (Nat.toDigits 10 value.natAbs ++ rest) =
      .number (.ofInt value) { start, rest } := by
  have hspan : spanDigits (Nat.toDigits 10 value.natAbs ++ rest) =
      (Nat.toDigits 10 value.natAbs, rest) := by
    refine spanDigits_append (fun c hc => isDigit_of_mem_digits hc) ?_
    cases rest <;> simp_all [continuesNumber]
  have hfraction : ∀ numeral : Numeral,
      scanFraction start numeral rest = .number numeral { start, rest } := by
    intro numeral
    cases rest with
    | nil => rfl
    | cons c rest =>
        simp only [continuesNumber, List.head?_cons, Option.any_some, Bool.or_eq_false_iff,
          decide_eq_false_iff_not] at hrest
        obtain ⟨⟨⟨-, hpoint⟩, he⟩, hE⟩ := hrest
        have hexponent : scanExponent start numeral (c :: rest) =
            .number numeral { start, rest := c :: rest } := by
          simp [scanExponent, he, hE]
        rw [scanFraction, hexponent]
        simpa using hpoint
  rw [scanNumber, hspan]
  by_cases hzero : value.natAbs = 0
  · simp [Numeral.ofInt, hzero, hfraction]
  · cases hdigits : Nat.toDigits 10 value.natAbs with
    | nil => exact absurd hdigits Nat.toDigits_ne_nil
    | cons c digits =>
        have hc : c ≠ '0' := by simpa [hdigits] using head?_toDigits_ne hzero
        simp only [hfraction, Numeral.ofInt, hdigits]
        split
        next heq => simp at heq
        next heq => exact absurd (List.cons.inj heq).1 hc
        next => rfl

end Wiring.Json
