import ByteMachine.Proofs.History
/-!
# Comparisons and jumps

The flags are the machine's memory of its last comparison. CMP sets them by the two bytes
in its registers, and no other instruction touches them, whatever becomes of these registers
later on. So the last CMP of a history decides every jump that follows it.

## Main statements

- `flags_of_steps`: the flags after a history are those of its last CMP.
- `jumps_follow_last_comparison`: jumps by the two bytes that were compared.
-/

namespace ByteMachine

/-! ## The last comparison -/

/-- The two bytes that a step compared: those in the registers of CMP, right before it. -/
def Transition.compared? (transition : Transition) : Option (UInt8 × UInt8) :=
  if transition.before.instruction? = some .cmp then
    some (transition.before.registerA, transition.before.registerB .cmp)
  else none

/-- The two bytes that the last CMP of a history compared, if there was one. -/
def lastCompared? (history : List Transition) : Option (UInt8 × UInt8) :=
  history.reverse.findSome? Transition.compared?

theorem lastCompared?_append_singleton (history : List Transition) (transition : Transition) :
    lastCompared? (history ++ [transition]) =
      transition.compared?.or (lastCompared? history) := by
  simp only [lastCompared?, List.reverse_append, List.reverse_singleton, List.singleton_append,
    List.findSome?_cons]
  cases transition.compared? with
  | none => rfl
  | some bytes => rfl

/-- The flags byte that a comparison leaves: 1 for equal bytes, 2 if the first one is greater
    and 4 if it is less. A machine that has compared nothing has none of the three set. -/
def flagsByte : Option (UInt8 × UInt8) → UInt8
  | none => 0
  | some (x, y) => if x = y then 1 else if y < x then 2 else 4

/-- Whether an instruction jumps after a comparison. Without one there is nothing that a jump
    could take for equal, greater or less, which leaves JMP and JNE. -/
def jumpsAfter : Option (UInt8 × UInt8) → Instruction → Bool
  | _, .jmp => true
  | none, .jne => true
  | some (x, y), .jeq => x = y
  | some (x, y), .jne => x ≠ y
  | some (x, y), .jgt => y < x
  | some (x, y), .jlt => x < y
  | some (x, y), .jge => y ≤ x
  | some (x, y), .jle => x ≤ y
  | _, _ => false

/-- The three ways in which two bytes compare, each with the flags byte that it leaves. -/
theorem flagsByte_cases (x y : UInt8) :
    (x = y ∧ compare x y = .eq ∧ flagsByte (some (x, y)) = 1) ∨
    (y < x ∧ compare x y = .gt ∧ flagsByte (some (x, y)) = 2) ∨
    (x < y ∧ compare x y = .lt ∧ flagsByte (some (x, y)) = 4) := by
  have hcompare : compare x y = compareOfLessAndEq x y := rfl
  rw [hcompare]
  by_cases heq : x = y
  · left
    simp [heq, flagsByte, compareOfLessAndEq, UInt8.lt_irrefl]
  right
  rcases UInt8.lt_or_lt_of_ne heq with hlt | hgt
  · right
    simp [heq, hlt, flagsByte, compareOfLessAndEq, UInt8.lt_asymm hlt]
  · left
    simp [heq, hgt, flagsByte, compareOfLessAndEq, UInt8.lt_asymm hgt]

theorem Flags.bits_ofOrdering (x y : UInt8) :
    (Flags.ofOrdering (compare x y)).bits = flagsByte (some (x, y)) := by
  rcases flagsByte_cases x y with ⟨-, hcompare, hbyte⟩ | ⟨-, hcompare, hbyte⟩ |
    ⟨-, hcompare, hbyte⟩
  all_goals
    rw [hcompare, hbyte]
    rfl

/-- The three flags are read off the byte again as they were put there. -/
theorem jumps_flagsByte (last : Option (UInt8 × UInt8)) (instruction : Instruction) :
    Machine.jumps (flagsByte last) instruction = jumpsAfter last instruction := by
  rcases last with _ | ⟨x, y⟩
  · cases instruction <;> rfl
  rcases flagsByte_cases x y with ⟨rfl, -, hbyte⟩ | ⟨hgt, -, hbyte⟩ | ⟨hlt, -, hbyte⟩
  · rw [hbyte]
    cases instruction <;> simp [Machine.jumps, jumpsAfter, Nat.testBit, UInt8.lt_irrefl]
  · have hne : x ≠ y := (UInt8.ne_of_lt hgt).symm
    rw [hbyte]
    cases instruction <;>
      simp [Machine.jumps, jumpsAfter, Nat.testBit, hgt, hne, UInt8.lt_asymm hgt,
        UInt8.le_of_lt hgt, UInt8.not_le.mpr hgt]
  · have hne : x ≠ y := UInt8.ne_of_lt hlt
    rw [hbyte]
    cases instruction <;>
      simp [Machine.jumps, jumpsAfter, Nat.testBit, hlt, hne, UInt8.lt_asymm hlt,
        UInt8.le_of_lt hlt, UInt8.not_le.mpr hlt]

namespace Machine

variable {machine later next : Machine} {sink rest out : Sink} {history : List Transition}
  {instruction : Instruction}

/-! ## One step -/

/-- What the arithmetic unit makes of the flags of an operation that is carried out. -/
theorem flagsAfter_of_aluOp {op : AluOp} (hop : instruction.aluOp? = some op)
    (h : machine.Executes instruction) :
    machine.flagsAfter instruction =
      op.flagsAfter machine.registerA (machine.registerB instruction) machine.flags := by
  have happly := machine.apply_operands hop
  rw [h.passes, AluOp.apply_eq] at happly
  -- A unit that has refused nothing has returned what the tables take from it.
  split at happly
  · cases happly
  split at happly
  · cases happly
  split at happly
  · cases happly
  · exact congrArg Prod.snd (Except.ok.inj happly).symm

/-- CMP sets the flags, and every other instruction leaves them as they are. -/
theorem flags_of_executes (h : machine.Executes instruction) :
    machine.flagsAfter instruction =
      if instruction = .cmp then .ofOrdering (compare machine.registerA (machine.registerB .cmp))
      else machine.flags := by
  cases hop : instruction.aluOp? with
  | none =>
    have hflags : machine.flagsAfter instruction = machine.flags := by
      unfold flagsAfter aluAfter
      rw [hop]
    rw [hflags, if_neg]
    rintro rfl
    cases hop
  | some op =>
    rw [flagsAfter_of_aluOp hop h]
    cases instruction <;> cases hop <;> rfl

theorem flags_of_step (h : machine.step sink = ⟨next, out, .ok ()⟩) :
    next.flags.bits =
      (Transition.compared? ⟨machine, next⟩).elim machine.flags.bits (flagsByte ∘ some) := by
  obtain ⟨instruction, hexecutes, -, -, rfl⟩ := exists_executes_of_step h
  show (machine.flagsAfter instruction).bits = _
  rw [flags_of_executes hexecutes]
  unfold Transition.compared?
  simp only [hexecutes.found, Option.some.injEq]
  split
  · exact Flags.bits_ofOrdering _ _
  · rfl

/-- A jump that is carried out goes to its register if the flags have it jump, and else to
    the address behind its operand. It does so also on a machine that does not run. -/
theorem pc_of_jump (hjump : instruction.condition?.isSome)
    (hfound : machine.instruction? = some instruction)
    (h : machine.step sink = ⟨next, out, .ok ()⟩) :
    next.pc.toNat =
      if jumps machine.flags.bits instruction then machine.registerA.toNat
      else machine.pc.toNat + 2 := by
  obtain ⟨other, hexecutes, -, -, rfl⟩ := exists_executes_of_step h
  obtain rfl : other = instruction := Option.some.inj (hexecutes.found.symm.trans hfound)
  have hshape : other.category ≠ .simple ∧ machine.pcAfter other =
      if jumps machine.flags.bits other then machine.registerA.toNat
      else machine.pc.toNat + 2 := by
    cases other
    case jmp | jeq | jne | jgt | jlt | jge | jle => exact ⟨by decide, rfl⟩
    all_goals cases hjump
  obtain ⟨hcategory, hpc⟩ := hshape
  show (UInt64.ofNat (machine.landing other)).toNat = _
  rw [toNat_landing hexecutes.fits, machine.landing_of_not_simple hcategory]
  exact hpc

/-! ## Histories -/

/-- The last CMP of a history has the last word on the flags. -/
theorem flags_of_steps (hsteps : Steps machine sink history later rest) :
    later.flags.bits =
      (lastCompared? history).elim machine.flags.bits (flagsByte ∘ some) := by
  induction hsteps with
  | refl => rfl
  | @snoc history later next rest out _ hstep ih =>
    rw [flags_of_step hstep, lastCompared?_append_singleton]
    cases Transition.compared? ⟨later, next⟩ with
    | none => exact ih
    | some bytes => rfl

/-- **Jumps follow the last comparison.** Start with a flags byte of zero and make any
    successful steps. The flags byte is then zero if none of them was CMP, and otherwise 1, 2
    or 4, as the two bytes were equal, or the first one greater or less, that the last CMP
    found in its registers; what has been done to these registers since does not count. Hence
    a jump that is carried out next goes to its register exactly if these two bytes compare as
    it asks, and to the address behind its operand otherwise: JMP always does, and without a
    CMP before, only JMP and JNE do. -/
theorem jumps_follow_last_comparison (hclear : machine.flags.bits = 0)
    (hsteps : Steps machine sink history later rest) :
    later.flags.bits = flagsByte (lastCompared? history) ∧
    ∀ jump ∈ [Instruction.jmp, .jeq, .jne, .jgt, .jlt, .jge, .jle],
      later.instruction? = some jump →
      ∀ last next out, later.step last = ⟨next, out, .ok ()⟩ →
        next.pc.toNat =
          if jumpsAfter (lastCompared? history) jump then later.registerA.toNat
          else later.pc.toNat + 2 := by
  have hbyte : later.flags.bits = flagsByte (lastCompared? history) := by
    rw [flags_of_steps hsteps, hclear]
    cases lastCompared? history with
    | none => rfl
    | some bytes => rfl
  refine ⟨hbyte, ?_⟩
  intro jump hmem hfound last next out hstep
  have hjump : jump.condition?.isSome := by
    simp only [List.mem_cons, List.not_mem_nil, or_false] at hmem
    rcases hmem with rfl | rfl | rfl | rfl | rfl | rfl | rfl <;> rfl
  rw [pc_of_jump hjump hfound hstep, hbyte, jumps_flagsByte]

/-- A byte is compared with a lesser one, which is then made equal to it: JGT still jumps. -/
theorem jumps_follow_last_comparison_made_equal :
    let start := ofProgram ⟨[0xA7, 7, 0, 0xA0, 0, 7, 0x57, 7], by decide⟩
    let compared := (start.step .unlimited).machine
    let added := (compared.step .unlimited).machine
    let jumped := (added.step .unlimited).machine
    (start.flags.bits = 0 ∧
      Steps start .unlimited [⟨start, compared⟩, ⟨compared, added⟩] added .unlimited ∧
      added.registers.get 0 = added.registers.get 7 ∧ added.instruction? = some .jgt) ∧
    added.flags.bits = 2 ∧ jumped.pc.toNat = added.registerA.toNat := by
  intro start compared added jumped
  have hcompare : start.step .unlimited = ⟨compared, .unlimited, .ok ()⟩ :=
    step_of_clear (by decide +kernel) (by decide +kernel)
  have hadd : compared.step .unlimited = ⟨added, .unlimited, .ok ()⟩ :=
    step_of_clear (by decide +kernel) (by decide +kernel)
  have hjump : added.step .unlimited = ⟨jumped, .unlimited, .ok ()⟩ :=
    step_of_clear (by decide +kernel) (by decide +kernel)
  have hsteps : Steps start .unlimited [⟨start, compared⟩, ⟨compared, added⟩] added .unlimited :=
    (Steps.refl.snoc hcompare).snoc hadd
  have hfound : added.instruction? = some .jgt := by decide +kernel
  have hlast : lastCompared? [⟨start, compared⟩, ⟨compared, added⟩] = some (0xF4, 0) := by
    decide +kernel
  obtain ⟨hbyte, hjumps⟩ := jumps_follow_last_comparison rfl hsteps
  have hpc := hjumps .jgt (by simp) hfound .unlimited jumped .unlimited hjump
  rw [hlast] at hbyte hpc
  exact ⟨⟨rfl, hsteps, by decide +kernel, hfound⟩, hbyte, hpc⟩

end Machine

end ByteMachine
