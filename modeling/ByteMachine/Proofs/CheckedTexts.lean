import ByteMachine.CheckedTexts
import ByteMachine.Proofs.Listing
/-!
# Texts that are always there

None of the accesses fails that are made for the text of an operation or for a listing. An operation
that has been decoded has no more operands than were read for it, and the walk through a program
stays within its bytes. So the texts with every access checked are the texts.

## Main statements

- `Operation.text?_of_decode`: what has been decoded can be shown.
- `Program.disassemble?_eq`: every program can be listed.
-/

namespace ByteMachine

/-! ## Operations -/

namespace Operation

variable {operation : Operation} {memory : Memory} {address : Nat}

theorem text?_eq (h : operation.operandCount ≤ 2) : operation.text? = some operation.text := by
  obtain ⟨instruction, category, count, raw, first, second⟩ := operation
  -- With none, one and two operands there is a line for every instruction.
  match count, h with
  | 0, _ => cases instruction <;> rfl
  | 1, _ => cases instruction <;> rfl
  | 2, _ => cases instruction <;> rfl

/-- **What has been decoded can be shown.** -/
theorem text?_of_decode (h : decode memory address = .ok operation) :
    operation.text? = some operation.text := by
  apply text?_eq
  rw [operandCount_of_decode h]
  exact operation.instruction.operandCount_le_two

end Operation

/-! ## Programs -/

namespace Program

variable (program : Program) {memory : Memory} {address : Nat}

theorem lineAt?_eq (h : address < program.length) :
    program.lineAt? program.image address = some (program.lineAt address) := by
  unfold lineAt? lineAt
  cases hdecode : Operation.decode program.image address with
  | ok operation =>
    dsimp only
    rw [Operation.text?_of_decode hdecode, Option.map_some]
  | error fault =>
    dsimp only
    rw [List.getD_eq_getElem?_getD, List.getElem?_eq_getElem h, Option.map_some,
      Option.getD_some]

theorem cut?_eq (h : address < program.length) :
    cut? program.bytes address (min (address + (program.lineAt address).1) program.length) =
      some (program.shownAt address) := by
  unfold cut? shownAt
  rw [if_pos ⟨by omega, Nat.min_le_right _ _⟩]
  congr 1
  rw [List.take_eq_take_iff, List.length_drop]
  unfold length at h ⊢
  omega

theorem walk?_eq (address : Nat) :
    program.walk? program.image address =
      some ((program.listingFrom address).map ListingLine.render) := by
  induction address using listingFrom.induct program with
  | case1 address hlt ih =>
    have hline := program.lineAt?_eq hlt
    rw [walk?, if_pos hlt, program.listingFrom_of_lt hlt]
    split
    · next hnone =>
      rw [hline] at hnone
      cases hnone
    · next width text hsome =>
      have hcut := program.cut?_eq hlt
      rw [hline, Option.some.injEq] at hsome
      rw [hsome] at hcut ih ⊢
      rw [hcut, ih]
      rfl
  | case2 address hge =>
    rw [walk?, if_neg hge, program.listingFrom_of_ge (Nat.not_lt.mp hge)]
    rfl

/-- **Every program can be listed.** -/
theorem disassemble?_eq : program.disassemble? = some program.disassemble := by
  unfold disassemble? Memory.load
  rw [if_pos program.fits]
  exact program.walk?_eq 0

end Program

end ByteMachine
