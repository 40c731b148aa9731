import ByteMachine.Proofs.Disassembly
import ByteMachine.Proofs.Encoding
/-!
# Operations and their texts

The text of an operation has a word for the instruction and, if there are operands, a second one
with the operands between commas. No word has a space in it and no operand a comma, so the text
can be taken apart again: it has the instruction and all operand bytes, and of an operation that
has been decoded there is no more to know. No mnemonic begins like a line of data.

## Main definitions

- `Operation.words`, `Operation.operandWords`: the parts of a text.
- `Operation.Regular`: what decoding fills in by itself.

## Main statements

- `Operation.splitOn_text`: a text is taken apart into its words.
- `Operation.eq_of_text_eq`: a text is that of one operation only.
- `Operation.text_identifies_operation`: the same for what has been decoded, against lines of
  data as well.
-/

namespace ByteMachine

/-- A mnemonic is that of one instruction only. -/
theorem Instruction.ofMnemonic?_mnemonic (instruction : Instruction) :
    ofMnemonic? instruction.mnemonic = some instruction := by
  cases instruction <;> decide +kernel

namespace Operation

/-! ## Operands as words -/

/-- The decimal digits of a byte. -/
def digits (byte : UInt8) : List Char :=
  Nat.toDigits 10 byte.toNat

/-- The operands as they are shown: each is a register, but for the number that a load brings
    along. -/
def operandWords (instruction : Instruction) : List UInt8 → List (List Char)
  | [] => []
  | [register] => ['R' :: digits register]
  | register :: other :: _ =>
    ['R' :: digits register, if instruction = .ldi then digits other else 'R' :: digits other]

/-- The byte that a word stands for. -/
def readOperand (word : List Char) : UInt8 :=
  UInt8.ofNat (Nat.ofDigitChars 10 (word.filter Char.isDigit) 0)

theorem isDigit_of_mem_digits {c : Char} {byte : UInt8} (h : c ∈ digits byte) :
    c.isDigit = true :=
  Nat.isDigit_of_mem_toDigits (by decide) (by decide) h

theorem readOperand_digits (byte : UInt8) : readOperand (digits byte) = byte := by
  unfold readOperand
  rw [List.filter_eq_self.mpr fun _ => isDigit_of_mem_digits, digits,
    Nat.ofDigitChars_ten_toDigits, UInt8.ofNat_toNat]

/-- The letter of a register is passed over. -/
theorem readOperand_register (byte : UInt8) : readOperand ('R' :: digits byte) = byte :=
  readOperand_digits byte

theorem map_readOperand {operands : List UInt8} (h : operands.length ≤ 2)
    (instruction : Instruction) :
    (operandWords instruction operands).map readOperand = operands := by
  match operands, h with
  | [], _ => rfl
  | [register], _ => rw [operandWords, List.map_singleton, readOperand_register]
  | [register, other], _ =>
    rw [operandWords, List.map_cons, List.map_singleton, readOperand_register]
    split
    · rw [readOperand_digits]
    · rw [readOperand_register]

/-- The words of operands are made of digits and the letter of registers. -/
theorem not_mem_of_mem_operandWords {c : Char} (hdigit : c.isDigit = false) (hletter : c ≠ 'R')
    {instruction : Instruction} {operands : List UInt8} {word : List Char}
    (h : word ∈ operandWords instruction operands) : c ∉ word := by
  have hnumber (byte : UInt8) : c ∉ digits byte := by
    intro hmem
    rw [isDigit_of_mem_digits hmem] at hdigit
    cases hdigit
  have hregister (byte : UInt8) : c ∉ 'R' :: digits byte := by
    rw [List.mem_cons, not_or]
    exact ⟨hletter, hnumber byte⟩
  match operands with
  | [] => cases h
  | [register] =>
    rw [operandWords, List.mem_singleton] at h
    rw [h]
    exact hregister register
  | register :: other :: _ =>
    rw [operandWords, List.mem_cons, List.mem_singleton] at h
    rcases h with rfl | rfl
    · exact hregister register
    · split
      · exact hnumber other
      · exact hregister other

/-! ## Reading texts -/

/-- What stands behind the mnemonic: nothing, or a space and the operands with commas between
    them. -/
def operandPart (instruction : Instruction) (operands : List UInt8) : List Char :=
  match operandWords instruction operands with
  | [] => []
  | shown => ' ' :: [','].intercalate shown

/-- The instruction that a text names, up to its first space. -/
def shownInstruction? (text : String) : Option Instruction :=
  Instruction.ofMnemonic? (String.ofList (text.toList.takeWhile (· ≠ ' ')))

/-- The operand bytes that a text shows, behind its first space. -/
def shownOperands (text : String) : List UInt8 :=
  match text.toList.dropWhile (· ≠ ' ') with
  | [] => []
  | _ :: shown => (shown.splitOn ',').map readOperand

variable (operation : Operation)

theorem length_operands_le : operation.operands.length ≤ 2 := by
  unfold operands
  rw [List.length_take]
  exact Nat.min_le_right _ _

theorem toList_text :
    operation.text.toList =
      operation.instruction.mnemonic.toList ++
        operandPart operation.instruction operation.operands := by
  unfold text operandPart
  rw [String.toList_append]
  congr 1
  -- The last two shapes differ in the letter before the second operand only.
  split
  · next hnone =>
    rw [hnone]
    rfl
  · next register hone =>
    rw [hone]
    simp [operandWords, registerName, digits]
  · next register number _ hldi hboth =>
    rw [hldi, hboth]
    simp [operandWords, registerName, digits]
  · next register other _ hboth hne =>
    rw [hboth, operandWords, if_neg hne]
    simp [registerName, digits]

theorem ne_space_of_mem_mnemonic (instruction : Instruction) :
    ∀ c ∈ instruction.mnemonic.toList, decide (c ≠ ' ') = true := by
  have hall : instruction.mnemonic.toList.all (· ≠ ' ') = true := by
    cases instruction <;> rfl
  exact List.all_eq_true.mp hall

theorem operandPart_cases (instruction : Instruction) (operands : List UInt8) :
    (operandWords instruction operands = [] ∧ operandPart instruction operands = []) ∨
      operandWords instruction operands ≠ [] ∧
        operandPart instruction operands =
          ' ' :: [','].intercalate (operandWords instruction operands) := by
  unfold operandPart
  split
  · next h => exact .inl ⟨h, rfl⟩
  · next h => exact .inr ⟨h, rfl⟩

/-- **The instruction is read back.** -/
theorem shownInstruction?_text :
    shownInstruction? operation.text = some operation.instruction := by
  have hmnemonic := ne_space_of_mem_mnemonic operation.instruction
  -- Behind the mnemonic there is a space or nothing.
  have hpart : (operandPart operation.instruction operation.operands).takeWhile (· ≠ ' ') = [] := by
    rcases operandPart_cases operation.instruction operation.operands with ⟨-, h⟩ | ⟨-, h⟩
    · rw [h, List.takeWhile_nil]
    · rw [h, List.takeWhile_cons_of_neg (by decide)]
  unfold shownInstruction?
  rw [toList_text, List.takeWhile_append_of_pos hmnemonic, hpart, List.append_nil,
    String.ofList_toList, Instruction.ofMnemonic?_mnemonic]

/-- **The operands are read back.** -/
theorem shownOperands_text : shownOperands operation.text = operation.operands := by
  have hmnemonic := ne_space_of_mem_mnemonic operation.instruction
  have hread := map_readOperand operation.length_operands_le operation.instruction
  unfold shownOperands
  rw [toList_text, List.dropWhile_append_of_pos hmnemonic]
  rcases operandPart_cases operation.instruction operation.operands with ⟨hnone, h⟩ | ⟨hsome, h⟩
  · rw [hnone, List.map_nil] at hread
    rw [h, List.dropWhile_nil]
    exact hread
  · have hfree : ∀ word ∈ operandWords operation.instruction operation.operands, ',' ∉ word :=
      fun _ => not_mem_of_mem_operandWords (by decide) (by decide)
    rw [h, List.dropWhile_cons_of_neg (by decide)]
    dsimp only
    rw [List.splitOn_intercalate ',' hfree hsome, hread]

/-! ## Decoded operations -/

/-- An operation as decoding fills it in: its shape is that of its instruction, and an operand
    that the instruction does not have is zero. -/
structure Regular (operation : Operation) : Prop where
  category : operation.category = operation.instruction.category
  operandCount : operation.operandCount = operation.instruction.operandCount
  raw : operation.raw = operation.instruction.opcode
  first : operation.operandCount = 0 → operation.first = 0
  second : operation.operandCount ≤ 1 → operation.second = 0

variable {operation} {memory other : Memory} {address place : Nat} {first second : Operation}

theorem regular_of_decode (h : decode memory address = .ok operation) : operation.Regular := by
  obtain ⟨instruction, hbyte, hfits, rfl⟩ := decode_eq_ok_iff.mp h
  have hinside : address < Memory.capacity := by
    unfold Instruction.width at hfits
    omega
  rw [getElem?_bytes_standing hinside, Option.some.injEq] at hbyte
  constructor
  case category => rfl
  case operandCount => rfl
  case raw => exact hbyte
  case first =>
    intro hnone
    exact if_neg (Nat.not_lt.mpr (Nat.le_of_eq hnone))
  case second =>
    intro hone
    exact if_neg (Nat.not_lt.mpr hone)

/-- A regular operation is given by its instruction and its operands. -/
theorem Regular.ext (hfirst : first.Regular) (hsecond : second.Regular)
    (hinstruction : first.instruction = second.instruction)
    (hoperands : first.operands = second.operands) : first = second := by
  have hcategory := hfirst.category
  have hcount := hfirst.operandCount
  have hraw := hfirst.raw
  rw [hinstruction, ← hsecond.category] at hcategory
  rw [hinstruction, ← hsecond.operandCount] at hcount
  rw [hinstruction, ← hsecond.raw] at hraw
  -- An operand is among the operands, or zero on both sides.
  have hbytes : first.first = second.first ∧ first.second = second.second := by
    unfold operands at hoperands
    rw [hcount] at hoperands
    rcases second.instruction.operandCount_cases with hnone | hone | hboth
    · rw [← hsecond.operandCount] at hnone
      rw [hfirst.first (hcount.trans hnone), hsecond.first hnone,
        hfirst.second (by omega), hsecond.second (by omega)]
      exact ⟨rfl, rfl⟩
    · rw [← hsecond.operandCount] at hone
      rw [hone] at hoperands
      rw [hfirst.second (by omega), hsecond.second (by omega)]
      exact ⟨(List.cons.inj hoperands).1, rfl⟩
    · rw [← hsecond.operandCount] at hboth
      rw [hboth] at hoperands
      obtain ⟨hhead, htail⟩ := List.cons.inj hoperands
      exact ⟨hhead, (List.cons.inj htail).1⟩
  cases first
  cases second
  congr
  · exact hbytes.1
  · exact hbytes.2

/-- **A text is that of one operation only**, among those that decoding fills in. -/
theorem Regular.eq_of_text_eq (hfirst : first.Regular) (hsecond : second.Regular)
    (h : first.text = second.text) : first = second := by
  apply hfirst.ext hsecond
  · have hread := shownInstruction?_text first
    rw [h, shownInstruction?_text] at hread
    exact (Option.some.inj hread).symm
  · rw [← shownOperands_text first, h, shownOperands_text]

/-! ## Lines of data -/

/-- No mnemonic begins with the letters that mark data. -/
theorem take_mnemonic_ne (instruction : Instruction) :
    2 ≤ instruction.mnemonic.toList.length ∧
      instruction.mnemonic.toList.take 2 ≠ ['D', 'B'] := by
  cases instruction <;> decide +kernel

theorem not_data_prefix_text (operation : Operation) :
    ¬ ['D', 'B', ' '] <+: operation.text.toList := by
  rintro ⟨rest, h⟩
  obtain ⟨hlength, hne⟩ := take_mnemonic_ne operation.instruction
  have htake := congrArg (List.take 2) h
  rw [toList_text, List.take_append_of_le_length hlength] at htake
  exact hne htake.symm

/-- A line of a listing with the text of an operation is not one of data: it is where this
    operation is decoded. -/
theorem decode_of_listed {program : Program} {line : ListingLine} (hregular : operation.Regular)
    (hline : line ∈ program.listing) (htext : line.text = operation.text) :
    decode program.image line.address = .ok operation := by
  obtain ⟨before, rest, hlisting⟩ := List.append_of_mem hline
  obtain ⟨-, hlineOf, -⟩ := program.listing_eq_append hlisting
  have hshown : line.text = (program.lineAt line.address).2 := congrArg ListingLine.text hlineOf
  rw [htext] at hshown
  unfold Program.lineAt at hshown
  split at hshown
  · next found hdecode =>
    rw [hdecode, (regular_of_decode hdecode).eq_of_text_eq hregular hshown.symm]
  · next fault hdecode =>
    -- Such a line would begin like data.
    refine absurd ?_ operation.not_data_prefix_text
    rw [hshown, String.toList_append]
    exact List.prefix_append _ _

/-- **The text of an operation identifies it.** Two operations that are decoded, anywhere in any
    two memories, have the same text exactly if they are the same in instruction, opcode byte,
    category, number of operands and operand bytes. The text does not begin like a line of data,
    and a line of a listing that has this text is where this operation is decoded. -/
theorem text_identifies_operation (hfirst : decode memory address = .ok first)
    (hsecond : decode other place = .ok second) :
    (first.text = second.text ↔ first = second) ∧
    ¬ ['D', 'B', ' '] <+: first.text.toList ∧
    ∀ (program : Program), ∀ line ∈ program.listing, line.text = first.text →
      decode program.image line.address = .ok first := by
  have hregular := regular_of_decode hfirst
  refine ⟨⟨hregular.eq_of_text_eq (regular_of_decode hsecond), congrArg text⟩,
    first.not_data_prefix_text, ?_⟩
  intro program line hline htext
  exact decode_of_listed hregular hline htext

/-- A load of a number and a load from memory with the same operand bytes differ in their texts,
    and the line with the text of the first is where it stands. -/
theorem text_identifies_operation_loads :
    let program : Program := ⟨[0x82, 0, 8, 0x83, 0, 8, 0xFF], by decide⟩
    let number : Operation :=
      { instruction := .ldi, category := .simple, operandCount := 2, raw := 0x82, second := 8 }
    let fetch : Operation :=
      { instruction := .ld, category := .simple, operandCount := 2, raw := 0x83, second := 8 }
    (decode program.image 0 = .ok number ∧ decode program.image 3 = .ok fetch) ∧
      number.text ≠ fetch.text ∧
      ∀ line ∈ program.listing, line.text = "LDI R0,8" →
        decode program.image line.address = .ok number := by
  intro program number fetch
  have hnumber : decode program.image 0 = .ok number := by decide +kernel
  have hfetch : decode program.image 3 = .ok fetch := by decide +kernel
  obtain ⟨hsame, -, hlisted⟩ := text_identifies_operation hnumber hfetch
  refine ⟨⟨hnumber, hfetch⟩, mt hsame.mp (by decide), ?_⟩
  intro line hline htext
  exact hlisted program line hline (htext.trans (by decide +kernel))

end Operation

end ByteMachine
