import ByteMachine.Proofs.Comparison
import Mathlib.Algebra.Ring.Int.Defs
import Mathlib.Algebra.Ring.Nat
/-!
# Arithmetic modulo 256

The arithmetic unit works on bytes. What it computes is what one gets from the integers that the
bytes stand for: the exact sum, difference, product, quotient and so on, of which the register
keeps the remainder modulo 256. The same bytes also come out of a unit of 32 bits that cuts its
results to a byte at the end, whatever it has in the upper bits by then: borrows of a difference,
the ones of a complement, or what a shift has moved up there.

## Main definitions

- `AluOp.exact`: the result of an operation in the integers.
- `AluOp.applyWide`: the unit of 32 bits.

## Main statements

- `AluOp.toNat_value`: the byte of an operation is its exact result modulo 256.
- `AluOp.applyWide_eq`: both units agree.
- `AluOp.apply_computes`: what the arithmetic unit does, in every case.
-/

namespace ByteMachine

namespace AluOp

/-! ## Exact results -/

/-- The exact result of an operation on two numbers. That of a comparison is the number that its
    register keeps. -/
def exact (op : AluOp) (x y : Nat) : Int :=
  match op with
  | add => x + y
  | sub => x - y
  | mul => x * y
  | div => (x / y : Nat)
  | mod => (x % y : Nat)
  | inc => x + 1
  | dec => x - 1
  | cmp => x
  | and => (x &&& y : Nat)
  | not => 255 - y
  | or => (x ||| y : Nat)
  | xor => (x ^^^ y : Nat)
  | shl => x * 2 ^ y
  | shr => (x / 2 ^ y : Nat)

/-! ## Shifts -/

section Shifts

variable (x : UInt8) {y : UInt8}

/-- Moved up by eight places or more, a byte is a multiple of 256. -/
theorem mul_two_pow_mod (h : 8 ≤ y.toNat) : x.toNat * 2 ^ y.toNat % 256 = 0 := by
  obtain ⟨more, hmore⟩ := Nat.exists_eq_add_of_le h
  have hfactor : 2 ^ y.toNat = 256 * 2 ^ more := by rw [hmore, Nat.pow_add]
  rw [hfactor, Nat.mul_left_comm, Nat.mul_mod_right]

/-- Moved down by eight places or more, nothing of a byte is left. -/
theorem div_two_pow (h : 8 ≤ y.toNat) : x.toNat / 2 ^ y.toNat = 0 := by
  have hbyte : 2 ^ 8 ≤ 2 ^ y.toNat := Nat.pow_le_pow_right (by decide) h
  exact Nat.div_eq_of_lt (Nat.lt_of_lt_of_le x.toNat_lt hbyte)

variable (y)

theorem toNat_shl : (shl.value x y).toNat = x.toNat * 2 ^ y.toNat % 256 := by
  unfold value
  dsimp only
  split
  · next hlt =>
    have hplaces : y.toNat % 8 = y.toNat := Nat.mod_eq_of_lt (UInt8.lt_iff_toNat_lt.mp hlt)
    rw [UInt8.toNat_shiftLeft, hplaces, Nat.shiftLeft_eq]
  · next hge =>
    have hplaces : 8 ≤ y.toNat := UInt8.le_iff_toNat_le.mp (UInt8.not_lt.mp hge)
    exact (mul_two_pow_mod x hplaces).symm

theorem toNat_shr : (shr.value x y).toNat = x.toNat / 2 ^ y.toNat := by
  unfold value
  dsimp only
  split
  · next hlt =>
    have hplaces : y.toNat % 8 = y.toNat := Nat.mod_eq_of_lt (UInt8.lt_iff_toNat_lt.mp hlt)
    rw [UInt8.toNat_shiftRight, hplaces, Nat.shiftRight_eq_div_pow]
  · next hge =>
    have hplaces : 8 ≤ y.toNat := UInt8.le_iff_toNat_le.mp (UInt8.not_lt.mp hge)
    exact (div_two_pow x hplaces).symm

end Shifts

/-! ## Bytes and exact results -/

/-- **The byte of an operation is its exact result modulo 256.** -/
theorem toNat_value (op : AluOp) (x y : UInt8) :
    ((op.value x y).toNat : Int) = op.exact x.toNat y.toNat % 256 := by
  have hx := x.toNat_lt
  have hy := y.toNat_lt
  -- A result that is a byte is not changed by taking the remainder.
  have hbyte (byte : UInt8) : (byte.toNat : Int) = (byte.toNat : Int) % 256 := by
    have := byte.toNat_lt
    omega
  cases op
  case add =>
    simp only [value, exact, UInt8.toNat_add]
    omega
  case inc =>
    have hone : (1 : UInt8).toNat = 1 := by decide
    simp only [value, exact, UInt8.toNat_add, hone]
    omega
  case sub =>
    simp only [value, exact, UInt8.toNat_sub]
    omega
  case dec =>
    have hone : (1 : UInt8).toNat = 1 := by decide
    simp only [value, exact, UInt8.toNat_sub, hone]
    omega
  case mul =>
    simp only [value, exact, UInt8.toNat_mul, Int.natCast_emod, Int.natCast_mul]
    rfl
  case div =>
    simp only [value, exact, ← UInt8.toNat_div]
    exact hbyte (x / y)
  case mod =>
    simp only [value, exact, ← UInt8.toNat_mod]
    exact hbyte (x % y)
  case cmp => exact hbyte x
  case and =>
    simp only [value, exact, ← UInt8.toNat_and]
    exact hbyte (x &&& y)
  case or =>
    simp only [value, exact, ← UInt8.toNat_or]
    exact hbyte (x ||| y)
  case xor =>
    simp only [value, exact, ← UInt8.toNat_xor]
    exact hbyte (x ^^^ y)
  case not =>
    simp only [value, exact, UInt8.toNat_not, UInt8.size]
    omega
  case shl =>
    rw [toNat_shl, Int.natCast_emod, Int.natCast_mul, Int.natCast_pow]
    rfl
  case shr =>
    have hquotient : exact .shr x.toNat y.toNat = (shr.value x y).toNat := by
      rw [toNat_shr]
      rfl
    rw [hquotient]
    exact hbyte (shr.value x y)

/-! ## The unit of 32 bits -/

/-- The result of an operation in 32 bits. A quotient or remainder by zero has none, and a shift
    by 32 places or more leaves nothing. -/
def wide? (op : AluOp) (x y : UInt32) : Option UInt32 :=
  match op with
  | add => some (x + y)
  | sub => some (x - y)
  | mul => some (x * y)
  | div => if y = 0 then none else some (x / y)
  | mod => if y = 0 then none else some (x % y)
  | inc => some (x + 1)
  | dec => some (x - 1)
  | cmp => some x
  | and => some (x &&& y)
  | not => some (~~~y)
  | or => some (x ||| y)
  | xor => some (x ^^^ y)
  | shl => some (if y < 32 then x <<< y else 0)
  | shr => some (if y < 32 then x >>> y else 0)

/-- Carries out an operation in 32 bits. The register keeps the lowest byte of the result. -/
def applyWide (op : AluOp) (a b : UInt8) (registers : Registers) (flags : Flags) :
    Except Fault (Registers × Flags) := do
  let x ← registers.read a
  let y ← registers.read b
  if op = .cmp then return (registers, .ofOrdering (compare x.toUInt32 y.toUInt32))
  match op.wide? x.toUInt32 y.toUInt32 with
  | none => throw .divideByZero
  | some result =>
    let registers ← registers.write a (Registers.lowByte result)
    return (registers, flags)

theorem toUInt32_lt_iff {y : UInt8} : y.toUInt32 < 32 ↔ y.toNat < 32 := by
  rw [UInt32.lt_iff_toNat_lt, UInt8.toNat_toUInt32]
  rfl

/-- A shift to the left in 32 bits leaves in the lowest byte what it leaves of a byte: by eight
    places or more, nothing, be it that all has moved up or that it is gone. -/
theorem lowByte_shl (x y : UInt8) :
    Registers.lowByte (if y.toUInt32 < 32 then x.toUInt32 <<< y.toUInt32 else 0) =
      shl.value x y := by
  apply UInt8.toNat_inj.mp
  rw [toNat_shl]
  unfold Registers.lowByte
  split
  · next hlt =>
    have hplaces : y.toNat % 32 = y.toNat := Nat.mod_eq_of_lt (toUInt32_lt_iff.mp hlt)
    rw [UInt32.toNat_toUInt8, UInt32.toNat_shiftLeft, UInt8.toNat_toUInt32,
      UInt8.toNat_toUInt32, hplaces, Nat.shiftLeft_eq]
    exact Nat.mod_mod_of_dvd _ (by decide)
  · next hge =>
    rw [toUInt32_lt_iff] at hge
    exact (mul_two_pow_mod x (by omega)).symm

/-- So does a shift to the right, which moves nothing up. -/
theorem lowByte_shr (x y : UInt8) :
    Registers.lowByte (if y.toUInt32 < 32 then x.toUInt32 >>> y.toUInt32 else 0) =
      shr.value x y := by
  apply UInt8.toNat_inj.mp
  rw [toNat_shr]
  unfold Registers.lowByte
  split
  · next hlt =>
    have hplaces : y.toNat % 32 = y.toNat := Nat.mod_eq_of_lt (toUInt32_lt_iff.mp hlt)
    rw [UInt32.toNat_toUInt8, UInt32.toNat_shiftRight, UInt8.toNat_toUInt32,
      UInt8.toNat_toUInt32, hplaces, Nat.shiftRight_eq_div_pow]
    exact Nat.mod_eq_of_lt (Nat.lt_of_le_of_lt (Nat.div_le_self _ _) x.toNat_lt)
  · next hge =>
    rw [toUInt32_lt_iff] at hge
    exact (div_two_pow x (by omega)).symm

/-- The lowest byte of a result in 32 bits is the result on bytes. -/
theorem map_lowByte_wide? (op : AluOp) (x y : UInt8) :
    (op.wide? x.toUInt32 y.toUInt32).map Registers.lowByte =
      if op.divides && y == 0 then none else some (op.value x y) := by
  have hzero : y.toUInt32 = 0 ↔ y = 0 := by
    rw [← UInt8.toUInt32_inj]
    rfl
  cases op
  case div =>
    simp only [wide?, divides, hzero, Bool.true_and, beq_iff_eq]
    split
    · rfl
    · simp only [Option.map_some, Registers.lowByte, ← UInt8.toUInt32_div, UInt8.toUInt8_toUInt32]
      rfl
  case mod =>
    simp only [wide?, divides, hzero, Bool.true_and, beq_iff_eq]
    split
    · rfl
    · simp only [Option.map_some, Registers.lowByte, ← UInt8.toUInt32_mod, UInt8.toUInt8_toUInt32]
      rfl
  case shl => exact congrArg some (lowByte_shl x y)
  case shr => exact congrArg some (lowByte_shr x y)
  all_goals
    simp only [wide?, Option.map_some, Registers.lowByte, UInt32.toUInt8_add, UInt32.toUInt8_sub,
      UInt32.toUInt8_mul, UInt32.toUInt8_and, UInt32.toUInt8_or, UInt32.toUInt8_xor,
      UInt32.toUInt8_not, UInt8.toUInt8_toUInt32]
    rfl

/-- Sums and products of bytes are exact in 32 bits. -/
theorem toNat_wide? {op : AluOp} (hop : op = .add ∨ op = .mul ∨ op = .inc) (x y : UInt8) :
    ∃ result, op.wide? x.toUInt32 y.toUInt32 = some result ∧
      (result.toNat : Int) = op.exact x.toNat y.toNat := by
  have hx := x.toNat_lt
  have hy := y.toNat_lt
  rcases hop with rfl | rfl | rfl
  · refine ⟨_, rfl, ?_⟩
    rw [UInt32.toNat_add, UInt8.toNat_toUInt32, UInt8.toNat_toUInt32]
    simp only [exact]
    omega
  · refine ⟨_, rfl, ?_⟩
    have hproduct : x.toNat * y.toNat < 2 ^ 32 :=
      Nat.lt_trans (Nat.mul_lt_mul'' hx hy) (by decide)
    rw [UInt32.toNat_mul, UInt8.toNat_toUInt32, UInt8.toNat_toUInt32,
      Nat.mod_eq_of_lt hproduct, Int.natCast_mul]
    rfl
  · refine ⟨_, rfl, ?_⟩
    have hone : (1 : UInt32).toNat = 1 := by decide
    rw [UInt32.toNat_add, UInt8.toNat_toUInt32, hone]
    simp only [exact]
    omega

theorem compare_toUInt32 (x y : UInt8) : compare x.toUInt32 y.toUInt32 = compare x y := by
  show compareOfLessAndEq x.toUInt32 y.toUInt32 = compareOfLessAndEq x y
  simp only [compareOfLessAndEq, UInt8.toUInt32_lt, UInt8.toUInt32_inj]

theorem flagsAfter_of_ne_cmp {op : AluOp} (h : op ≠ .cmp) (x y : UInt8) (flags : Flags) :
    op.flagsAfter x y flags = flags := by
  cases op
  case cmp => exact absurd rfl h
  all_goals rfl

/-- **The unit of 32 bits does the same.** -/
theorem applyWide_eq (op : AluOp) (a b : UInt8) (registers : Registers) (flags : Flags) :
    op.applyWide a b registers flags = op.apply a b registers flags := by
  rw [apply_eq]
  unfold applyWide
  rw [Registers.read_eq, refusal_bind, Registers.read_eq, refusal_bind]
  by_cases ha : 8 ≤ a
  · rw [if_pos ha, if_pos ha]
  by_cases hb : 8 ≤ b
  · rw [if_neg ha, if_neg ha, if_pos hb, if_pos hb]
  rw [if_neg ha, if_neg ha, if_neg hb, if_neg hb]
  by_cases hcmp : op = .cmp
  · -- A comparison writes back what it has read, or nothing at all.
    subst hcmp
    rw [if_pos rfl, compare_toUInt32]
    simp only [divides, Bool.false_and, Bool.false_eq_true, if_false, value, flagsAfter,
      Registers.put_get_self]
    rfl
  · rw [if_neg hcmp, flagsAfter_of_ne_cmp hcmp]
    have hbyte := op.map_lowByte_wide? (registers.get a) (registers.get b)
    cases hwide : op.wide? (registers.get a).toUInt32 (registers.get b).toUInt32 with
    | none =>
      rw [hwide, Option.map_none] at hbyte
      split at hbyte
      · next hdivides =>
        rw [if_pos hdivides]
        rfl
      · cases hbyte
    | some result =>
      rw [hwide, Option.map_some] at hbyte
      split at hbyte
      · cases hbyte
      · next hdivides =>
        dsimp only
        rw [if_neg hdivides, Option.some.inj hbyte, Registers.write_eq, if_neg ha]
        rfl

/-! ## What the arithmetic unit does -/

/-- An operation on the registers `R[a]` and `R[b]` leaves the registers `after` and the flags
    `flagsAfter`. -/
structure Computes (op : AluOp) (a b : UInt8) (registers : Registers) (flags : Flags)
    (after : Registers) (flagsAfter : Flags) : Prop where
  /-- `R[a]` is the exact result, modulo 256. -/
  result : op ≠ .cmp →
    ((after.get a).toNat : Int) =
      op.exact (registers.get a).toNat (registers.get b).toNat % 256
  /-- No other register changes. -/
  others : ∀ index, index ≠ a → after.get index = registers.get index
  /-- The flags change by a comparison only. -/
  flags_eq : op ≠ .cmp → flagsAfter = flags
  /-- A comparison changes no register, sets one flag and clears all other bits. -/
  compared : op = .cmp → after = registers ∧
    flagsAfter.bits =
      (if registers.get a = registers.get b then 0b001
        else if registers.get b < registers.get a then 0b010 else 0b100) ∧
    flagsAfter.equal = decide (registers.get a = registers.get b) ∧
    flagsAfter.greater = decide (registers.get b < registers.get a) ∧
    flagsAfter.less = decide (registers.get a < registers.get b)

/-- The three flags after a comparison, as they are read. -/
theorem flags_ofOrdering (x y : UInt8) :
    (Flags.ofOrdering (compare x y)).equal = decide (x = y) ∧
    (Flags.ofOrdering (compare x y)).greater = decide (y < x) ∧
    (Flags.ofOrdering (compare x y)).less = decide (x < y) := by
  rcases flagsByte_cases x y with ⟨rfl, hcompare, -⟩ | ⟨hgt, hcompare, -⟩ | ⟨hlt, hcompare, -⟩
  · rw [hcompare]
    simp [UInt8.lt_irrefl]
    decide
  · rw [hcompare]
    simp [hgt, (UInt8.ne_of_lt hgt).symm, UInt8.lt_asymm hgt]
    decide
  · rw [hcompare]
    simp [hlt, UInt8.ne_of_lt hlt, UInt8.lt_asymm hlt]
    decide

/-- What a unit that refuses nothing returns. -/
theorem computes (op : AluOp) {a : UInt8} (ha : ¬ 8 ≤ a) (b : UInt8) (registers : Registers)
    (flags : Flags) :
    op.Computes a b registers flags
      (registers.put a (op.value (registers.get a) (registers.get b)))
      (op.flagsAfter (registers.get a) (registers.get b) flags) where
  result _ := by
    rw [registers.get_put_self ha]
    exact op.toNat_value _ _
  others index h := registers.get_put_of_ne h _
  flags_eq h := flagsAfter_of_ne_cmp h _ _ _
  compared h := by
    subst h
    exact ⟨registers.put_get_self a, Flags.bits_ofOrdering _ _, flags_ofOrdering _ _⟩

/-- **The arithmetic unit is integer arithmetic modulo 256.** A register that there is not counts
    first, that of `R[a]` before that of `R[b]`, also for the operations that need only one of
    them; then a quotient or remainder by zero. In all other cases the operation is carried out,
    and it leaves what exact arithmetic says. The unit of 32 bits does the same, and no sum or
    product of two bytes is too large for it. -/
theorem apply_computes (op : AluOp) (a b : UInt8) (registers : Registers) (flags : Flags) :
    (if 8 ≤ a then op.apply a b registers flags = .error (.registerIndex a)
      else if 8 ≤ b then op.apply a b registers flags = .error (.registerIndex b)
      else if (op = .div ∨ op = .mod) ∧ registers.get b = 0 then
        op.apply a b registers flags = .error .divideByZero
      else ∃ after flagsAfter, op.apply a b registers flags = .ok (after, flagsAfter) ∧
        op.Computes a b registers flags after flagsAfter) ∧
    op.applyWide a b registers flags = op.apply a b registers flags ∧
    (op = .add ∨ op = .mul ∨ op = .inc → ∀ x y : UInt8,
      ∃ result, op.wide? x.toUInt32 y.toUInt32 = some result ∧
        (result.toNat : Int) = op.exact x.toNat y.toNat) := by
  refine ⟨?_, op.applyWide_eq a b registers flags, toNat_wide?⟩
  rw [apply_eq]
  -- The registers count first, and only then may a divisor be asked for.
  split
  · rfl
  next ha =>
  split
  · rfl
  have hdivides : (op.divides && registers.get b == 0) = true ↔
      (op = .div ∨ op = .mod) ∧ registers.get b = 0 := by
    rw [Bool.and_eq_true, beq_iff_eq]
    cases op <;> simp [divides]
  simp only [hdivides]
  split
  · rfl
  · exact ⟨_, _, rfl, op.computes ha b registers flags⟩

/-- 200 times 200 is 40000, which the unit of 32 bits has in full, and of which a register keeps
    the remainder 64, also if it holds both factors. -/
theorem apply_computes_square :
    let registers := Registers.initial.put 0 200
    (∃ after flagsAfter, mul.apply 0 0 registers {} = .ok (after, flagsAfter) ∧
      (after.get 0).toNat = 64 ∧ after.get 7 = Registers.stackTop ∧ flagsAfter = {}) ∧
    (mul = .add ∨ mul = .mul ∨ mul = .inc) ∧
    ∃ result, mul.wide? (200 : UInt8).toUInt32 (200 : UInt8).toUInt32 = some result ∧
      (result.toNat : Int) = 40000 := by
  intro registers
  obtain ⟨hcases, -, hwide⟩ := apply_computes mul 0 0 registers {}
  have hregister : ¬ (8 : UInt8) ≤ 0 := by decide
  have hdivisor : ¬ ((mul = .div ∨ mul = .mod) ∧ registers.get 0 = 0) := by decide
  rw [if_neg hregister, if_neg hregister, if_neg hdivisor] at hcases
  obtain ⟨after, flagsAfter, happly, hcomputes⟩ := hcases
  have hresult := hcomputes.result (by decide)
  have hexact : mul.exact (registers.get 0).toNat (registers.get 0).toNat % 256 = 64 := by decide
  rw [hexact] at hresult
  refine ⟨⟨after, flagsAfter, happly, by omega, ?_, hcomputes.flags_eq (by decide)⟩,
    .inr (.inl rfl), hwide (.inr (.inl rfl)) 200 200⟩
  exact hcomputes.others 7 (by decide)

end AluOp

end ByteMachine
