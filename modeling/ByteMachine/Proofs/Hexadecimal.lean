import ByteMachine.Numeral
import Mathlib.Data.List.Basic
/-!
# Hexadecimal numerals

The numerals of listings and traces, digit by digit.

## Main statements

- `hexValue?_digitChar`: a digit is read as the number that it was written for.
- `toList_hex_of_lt`: a byte has exactly two digits.
- `ofHex_padded`: a numeral is read as its number, however long it is and is made.
-/

namespace ByteMachine.Numeral

/-! ## Digits -/

/-- The hexadecimal digit of a number below sixteen, in upper case. -/
def hexDigit (n : Nat) : Char :=
  ['0', '1', '2', '3', '4', '5', '6', '7', '8', '9', 'A', 'B', 'C', 'D', 'E', 'F'].getD n '0'

theorem toUpper_digitChar {n : Nat} (h : n < 16) : (Nat.digitChar n).toUpper = hexDigit n := by
  revert n
  decide

/-- The digits of a number, by its last one. -/
theorem map_toUpper_toDigits {n : Nat} (h : 16 ≤ n) :
    (Nat.toDigits 16 n).map Char.toUpper =
      (Nat.toDigits 16 (n / 16)).map Char.toUpper ++ [hexDigit (n % 16)] := by
  rw [Nat.toDigits_of_base_le (by decide) h, List.map_append, List.map_cons, List.map_nil,
    toUpper_digitChar (Nat.mod_lt n (by decide))]

theorem map_toUpper_toDigits_of_lt {n : Nat} (h : n < 16) :
    (Nat.toDigits 16 n).map Char.toUpper = [hexDigit n] := by
  rw [Nat.toDigits_of_lt_base h, List.map_cons, List.map_nil, toUpper_digitChar h]

/-- A digit is read as its number, in lower case and in upper case. -/
theorem hexValue?_digitChar {n : Nat} (h : n < 16) :
    hexValue? (Nat.digitChar n) = some n ∧ hexValue? (Nat.digitChar n).toUpper = some n := by
  revert n
  decide

theorem hexValue?_hexDigit {n : Nat} (h : n < 16) : hexValue? (hexDigit n) = some n := by
  rw [← toUpper_digitChar h]
  exact (hexValue?_digitChar h).2

theorem hexDigit_inj {m n : Nat} (hm : m < 16) (hn : n < 16) (h : hexDigit m = hexDigit n) :
    m = n := by
  have hread := hexValue?_hexDigit hm
  rw [h, hexValue?_hexDigit hn] at hread
  exact (Option.some.inj hread).symm

/-- A character that is not read as a digit is none. -/
theorem hexDigit_ne {n : Nat} (h : n < 16) {c : Char} (hc : hexValue? c = none) :
    hexDigit n ≠ c := by
  rintro rfl
  rw [hexValue?_hexDigit h] at hc
  cases hc

theorem hexDigit_ne_space {n : Nat} (h : n < 16) : hexDigit n ≠ ' ' :=
  hexDigit_ne h (by decide)

/-! ## Two digits -/

/-- The two hexadecimal digits of a number below 256. -/
def twoDigits (n : Nat) : List Char :=
  [hexDigit (n / 16), hexDigit (n % 16)]

theorem twoDigits_inj {m n : Nat} (hm : m < 256) (hn : n < 256)
    (h : twoDigits m = twoDigits n) : m = n := by
  obtain ⟨hhigh, htail⟩ := List.cons.inj h
  obtain ⟨hlow, -⟩ := List.cons.inj htail
  have hdiv := hexDigit_inj (by omega) (by omega) hhigh
  have hmod := hexDigit_inj (by omega) (by omega) hlow
  omega

theorem filter_twoDigits {n : Nat} (h : n < 256) :
    (twoDigits n).filter (· ≠ ' ') = twoDigits n := by
  have hhigh : hexDigit (n / 16) ≠ ' ' := hexDigit_ne_space (by omega)
  have hlow : hexDigit (n % 16) ≠ ' ' := hexDigit_ne_space (by omega)
  simp [twoDigits, hhigh, hlow]

/-- A numeral of a number below 256 has its two digits and no more. -/
theorem toList_hex_of_lt {n : Nat} (h : n < 256) : (hex n).toList = twoDigits n := by
  unfold hex padded twoDigits
  rw [String.toList_ofList]
  by_cases hsmall : n < 16
  · -- The digit of sixteen is the zero that is put in front.
    rw [map_toUpper_toDigits_of_lt hsmall, Nat.div_eq_of_lt hsmall, Nat.mod_eq_of_lt hsmall]
    rfl
  · have hdiv : n / 16 < 16 := by omega
    rw [map_toUpper_toDigits (Nat.not_lt.mp hsmall), map_toUpper_toDigits_of_lt hdiv]
    rfl

/-! ## Any number of digits -/

/-- The number that digits stand for. -/
def ofHex (digits : List Char) : Nat :=
  digits.foldl (fun n c => 16 * n + (hexValue? c).getD 0) 0

theorem ofHex_concat (digits : List Char) {n : Nat} (h : n < 16) :
    ofHex (digits ++ [hexDigit n]) = 16 * ofHex digits + n := by
  unfold ofHex
  rw [List.foldl_append, List.foldl_cons, List.foldl_nil, hexValue?_hexDigit h, Option.getD_some]

/-- Zeros in front do not count. -/
theorem ofHex_zeros_append (count : Nat) (digits : List Char) :
    ofHex (List.replicate count '0' ++ digits) = ofHex digits := by
  induction count with
  | zero => rfl
  | succ count ih => exact ih

theorem ofHex_toDigits (n : Nat) : ofHex ((Nat.toDigits 16 n).map Char.toUpper) = n := by
  induction n using Nat.strongRecOn with
  | ind n ih =>
    rcases Nat.lt_or_ge n 16 with hsmall | hlarge
    · rw [map_toUpper_toDigits_of_lt hsmall, ← List.nil_append [_], ofHex_concat [] hsmall]
      exact Nat.zero_add n
    · rw [map_toUpper_toDigits hlarge, ofHex_concat _ (Nat.mod_lt n (by decide)),
        ih (n / 16) (by omega)]
      omega

/-- **A numeral is read as its number.** -/
theorem ofHex_padded (width n : Nat) : ofHex (padded 16 width n) = n := by
  unfold padded List.leftpad
  rw [ofHex_zeros_append, ofHex_toDigits]

theorem padded_inj {width m n : Nat} (h : padded 16 width m = padded 16 width n) : m = n := by
  rw [← ofHex_padded width m, h, ofHex_padded]

theorem exists_hexDigit_of_mem_toDigits {n : Nat} {c : Char}
    (h : c ∈ (Nat.toDigits 16 n).map Char.toUpper) : ∃ digit < 16, c = hexDigit digit := by
  induction n using Nat.strongRecOn with
  | ind n ih =>
    rcases Nat.lt_or_ge n 16 with hsmall | hlarge
    · rw [map_toUpper_toDigits_of_lt hsmall, List.mem_singleton] at h
      exact ⟨n, hsmall, h⟩
    · rw [map_toUpper_toDigits hlarge, List.mem_append, List.mem_singleton] at h
      rcases h with hfront | hlast
      · exact ih (n / 16) (by omega) hfront
      · exact ⟨n % 16, Nat.mod_lt n (by decide), hlast⟩

/-- All characters of a numeral are digits. -/
theorem not_mem_padded {c : Char} (hc : hexValue? c = none) (width n : Nat) :
    c ∉ padded 16 width n := by
  intro hmem
  unfold padded List.leftpad at hmem
  rcases List.mem_append.mp hmem with hzero | hdigit
  · rw [List.eq_of_mem_replicate hzero] at hc
    cases hc
  · obtain ⟨digit, hlt, rfl⟩ := exists_hexDigit_of_mem_toDigits hdigit
    exact hexDigit_ne hlt hc rfl

end ByteMachine.Numeral
