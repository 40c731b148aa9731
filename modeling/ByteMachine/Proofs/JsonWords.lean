import ByteMachine.Json.Token
import Mathlib.Data.List.TakeWhile
/-!
# Words of JSON

The constants and numbers as the scanner reads them, from the side of what is written. The
numeral of an integer has no zero in front and no sign but for a minus, so it is read as
that integer and not as a real. All characters of a word are such that the word goes on.

## Main statements

- `word?_repr`: the decimal numeral of an integer is read as that integer.
- `endsWord_of_word?`: no character of a word ends words.
-/

namespace ByteMachine.Json

/-! ## Numerals -/

/-- The numeral of a number starts with a zero only if the number is zero. -/
theorem head?_toDigits_ne {n : Nat} (h : n ≠ 0) : (Nat.toDigits 10 n).head? ≠ some '0' := by
  induction n using Nat.strongRecOn with
  | ind n ih =>
    by_cases hsmall : n < 10
    · have hdigit : ∀ m < 10, m ≠ 0 → Nat.digitChar m ≠ '0' := by decide
      rw [Nat.toDigits_of_lt_base hsmall]
      simpa using hdigit n hsmall h
    · have hhead := ih (n / 10) (by omega) (by omega)
      obtain ⟨c, cs, hcons⟩ :=
        List.exists_cons_of_ne_nil (Nat.toDigits_ne_nil (b := 10) (n := n / 10))
      rw [Nat.toDigits_of_base_le (by decide) (Nat.not_lt.mp hsmall), hcons]
      rwa [hcons] at hhead

theorem areWhole_toDigits (n : Nat) : areWhole (Nat.toDigits 10 n) = true := by
  have hdigits : Numeral.areDigits (Nat.toDigits 10 n) = true := by
    simp only [Numeral.areDigits, Bool.and_eq_true, Bool.not_eq_true', List.isEmpty_eq_false_iff,
      List.all_eq_true]
    exact ⟨Nat.toDigits_ne_nil, fun c => Nat.isDigit_of_mem_toDigits (by decide) (by decide)⟩
  by_cases hzero : n = 0
  · subst hzero
    rfl
  · simp [areWhole, hdigits, head?_toDigits_ne hzero]

theorem takeWhile_toDigits (n : Nat) :
    (Nat.toDigits 10 n).takeWhile Char.isDigit = Nat.toDigits 10 n :=
  List.takeWhile_eq_self_iff.mpr fun _ => Nat.isDigit_of_mem_toDigits (by decide) (by decide)

theorem dropWhile_toDigits (n : Nat) : (Nat.toDigits 10 n).dropWhile Char.isDigit = [] :=
  List.dropWhile_eq_nil_iff.mpr fun _ => Nat.isDigit_of_mem_toDigits (by decide) (by decide)

theorem head?_toDigits_ne_of_not_isDigit (n : Nat) {c : Char} (h : c.isDigit = false) :
    (Nat.toDigits 10 n).head? ≠ some c := by
  intro hhead
  have hdigit := Nat.isDigit_of_mem_toDigits (by decide) (by decide) (List.mem_of_head? hhead)
  rw [h] at hdigit
  cases hdigit

theorem number?_repr (value : Int) : number? (Int.repr value).toList = some (integer value) := by
  cases value with
  | ofNat n =>
    have hsign := head?_toDigits_ne_of_not_isDigit n (c := '-') (by decide)
    simp [Int.repr, number?, Nat.toList_repr, hsign, takeWhile_toDigits, dropWhile_toDigits,
      areWhole_toDigits, isRealTail, Nat.ofDigitChars_ten_toDigits]
  | negSucc n =>
    -- A negative zero would be a real.
    have hzero : Nat.toDigits 10 (n + 1) ≠ ['0'] := by
      intro h
      exact head?_toDigits_ne (Nat.succ_ne_zero n) (by rw [h]; rfl)
    simp [Int.repr, number?, Nat.toList_repr, takeWhile_toDigits, dropWhile_toDigits,
      areWhole_toDigits, isRealTail, Nat.ofDigitChars_ten_toDigits, hzero, Int.negSucc_eq]

/-- The numeral of an integer is read as that integer. -/
theorem word?_repr (value : Int) : word? (Int.repr value).toList = some (integer value) := by
  have hnumber := number?_repr value
  unfold word?
  split_ifs with h h h
  -- The constants are no numbers.
  · rw [h] at hnumber
    cases hnumber
  · rw [h] at hnumber
    cases hnumber
  · rw [h] at hnumber
    cases hnumber
  · exact hnumber

/-! ## The characters of words -/

/-- Whether a character may stand in a number. -/
def isOfNumber (c : Char) : Bool :=
  c.isDigit || ['-', '+', '.', 'e', 'E'].contains c

/-- The characters that end words. -/
def wordEnds : List Char :=
  ['\x22', ' ', '\n', '\r', '\t', '[', ']', '\x7b', '\x7d', ',', ':']

theorem mem_wordEnds {c : Char} (h : endsWord c = true) : c ∈ wordEnds := by
  simp only [endsWord, isSpace, mark?, Bool.or_eq_true, decide_eq_true_eq] at h
  rcases h with (rfl | ((rfl | rfl) | rfl) | rfl) | hmark
  case inr => split_ifs at hmark <;> simp_all [wordEnds]
  all_goals simp [wordEnds]

theorem endsWord_of_isOfNumber {c : Char} (h : isOfNumber c = true) : endsWord c = false := by
  have hnone : wordEnds.all (fun c => !isOfNumber c) = true := by decide
  by_contra hends
  have hnot := List.all_eq_true.mp hnone c (mem_wordEnds (eq_true_of_ne_false hends))
  rw [h] at hnot
  cases hnot

theorem all_isOfNumber_of_areDigits {cs : List Char} (h : Numeral.areDigits cs = true) :
    cs.all isOfNumber = true := by
  simp only [Numeral.areDigits, Bool.and_eq_true, List.all_eq_true] at h
  simp only [List.all_eq_true, isOfNumber, Bool.or_eq_true]
  exact fun c hc => Or.inl (h.2 c hc)

theorem all_isOfNumber_of_isExponent {cs : List Char} (h : Numeral.isExponent cs = true) :
    cs.all isOfNumber = true := by
  have hmark : ∀ {mark : Char}, (mark == 'e' || mark == 'E') = true → isOfNumber mark = true := by
    intro mark hmark
    rcases (Bool.or_eq_true _ _).mp hmark with hmark | hmark
    · rw [eq_of_beq hmark]
      rfl
    · rw [eq_of_beq hmark]
      rfl
  unfold Numeral.isExponent at h
  split at h
  · rfl
  all_goals
    obtain ⟨hexponent, hdigits⟩ := (Bool.and_eq_true _ _).mp h
    simp only [List.all_cons, hmark hexponent, all_isOfNumber_of_areDigits hdigits]
    rfl

/-- Digits and then something else that may stand in a number. -/
theorem all_isOfNumber_of_takeWhile {cs : List Char}
    (hdigits : Numeral.areDigits (cs.takeWhile Char.isDigit) = true)
    (hrest : (cs.dropWhile Char.isDigit).all isOfNumber = true) :
    cs.all isOfNumber = true := by
  rw [← List.takeWhile_append_dropWhile (p := Char.isDigit) (l := cs), List.all_append,
    all_isOfNumber_of_areDigits hdigits, hrest]
  rfl

theorem all_isOfNumber_of_isRealTail {cs : List Char} (h : isRealTail cs = true) :
    cs.all isOfNumber = true := by
  unfold isRealTail at h
  split at h
  · rfl
  · next cs =>
    obtain ⟨hdigits, hexponent⟩ := (Bool.and_eq_true _ _).mp h
    rw [List.all_cons,
      all_isOfNumber_of_takeWhile hdigits (all_isOfNumber_of_isExponent hexponent)]
    rfl
  · exact all_isOfNumber_of_isExponent h

theorem all_isOfNumber_of_number? {cs : List Char} {value : Json} (h : number? cs = some value) :
    cs.all isOfNumber = true := by
  have hmagnitude : (if cs.head? == some '-' then cs.tail else cs).all isOfNumber = true := by
    simp only [number?] at h
    generalize (if cs.head? == some '-' then cs.tail else cs) = digits at h ⊢
    split at h
    · cases h
    · next hwhole =>
      rw [Bool.not_eq_true, Bool.not_eq_false'] at hwhole
      apply all_isOfNumber_of_takeWhile ((Bool.and_eq_true _ _).mp hwhole).1
      split at h
      · next hreal =>
        rcases (Bool.or_eq_true _ _).mp hreal with hreal | hzero
        · exact all_isOfNumber_of_isRealTail hreal
        · simp only [Bool.and_eq_true, List.isEmpty_iff] at hzero
          rw [hzero.1.1]
          rfl
      · split at h
        · next hempty =>
          rw [List.isEmpty_iff.mp hempty]
          rfl
        · cases h
  split_ifs at hmagnitude with hsign
  · cases cs with
    | nil => rfl
    | cons c rest =>
      obtain rfl : c = '-' := by simpa using hsign
      exact hmagnitude
  · exact hmagnitude

/-- The characters of a constant or a number do not end words. -/
theorem endsWord_of_word? {cs : List Char} {value : Json} (h : word? cs = some value) :
    ∀ c ∈ cs, endsWord c = false := by
  have hplain : cs.all (fun c => !endsWord c) = true := by
    unfold word? at h
    split_ifs at h with hcs hcs hcs
    · rw [hcs]
      rfl
    · rw [hcs]
      rfl
    · rw [hcs]
      rfl
    · rw [List.all_eq_true]
      intro c hc
      rw [endsWord_of_isOfNumber (List.all_eq_true.mp (all_isOfNumber_of_number? h) c hc)]
      rfl
  simpa using hplain

end ByteMachine.Json
