import ByteMachine.Proofs.Step
/-!
# Operations as bytes

An operation stands in memory as its opcode byte, which also says how many operand bytes
follow. To write these bytes and to decode them again gives the operation back, at every
address from which on they fit, and whatever decodes is written there in just this way.
Decoding fails for three reasons only, each with its fault: the address is no cell, the byte in
it is no opcode, or the operands run over the end of memory.

Here memory is seen as the list of its bytes. Decoding is also given a second form, with a
table of all opcode bytes that is filled in one instruction after the other, and with a loop
over the operands.

## Main definitions

- `Memory.writeAll`: writes bytes one after the other.
- `Operation.decodeByTable`: decoding by the table and the loop.

## Main statements

- `Memory.bytes_writeAll`: what is in memory after bytes have been written.
- `Operation.decodeByTable_eq`: both forms of decoding agree.
- `Operation.decode_inverts_encoding`: decoding and writing are inverse to each other.
-/

namespace ByteMachine

/-! ## Memory as a list of bytes -/

namespace Memory

/-- The contents of all cells, in order. -/
def bytes (memory : Memory) : List UInt8 :=
  memory.cells.toList

/-- Writes bytes from an address on, one after the other. -/
def writeAll (memory : Memory) (address : Nat) : List UInt8 → Except Fault Memory
  | [] => .ok memory
  | byte :: rest => do
    let memory ← memory.write address byte
    memory.writeAll (address + 1) rest

@[simp] theorem length_bytes (memory : Memory) : memory.bytes.length = capacity :=
  memory.cells.length_toList

theorem getElem?_bytes (memory : Memory) {address : Nat} (h : address < capacity) :
    memory.bytes[address]? = some (memory.cell (UInt8.ofNat address)) := by
  have hbyte : (UInt8.ofNat address).toNat = address := UInt8.toNat_ofNat_of_lt' h
  have hlt : address < 256 := h
  simp [bytes, cell, hbyte, hlt]

theorem getElem?_bytes_eq_none_iff (memory : Memory) {address : Nat} :
    memory.bytes[address]? = none ↔ capacity ≤ address := by
  rw [List.getElem?_eq_none_iff, length_bytes]

/-- A run of bytes begins with the byte of its first cell. -/
theorem take_drop_bytes (memory : Memory) {address : Nat} (h : address < capacity)
    (count : Nat) :
    (memory.bytes.drop address).take (count + 1) =
      memory.cell (UInt8.ofNat address) :: (memory.bytes.drop (address + 1)).take count := by
  have hlength : address < memory.bytes.length := by rwa [length_bytes]
  have hget := memory.getElem?_bytes h
  rw [List.getElem?_eq_getElem hlength, Option.some.injEq] at hget
  rw [List.drop_eq_getElem_cons hlength, List.take_succ_cons, hget]

/-- A byte can be written to every cell, and all other cells stay as they were. -/
theorem bytes_write (memory : Memory) {address : Nat} (h : address < capacity) (byte : UInt8) :
    ∃ written, memory.write address byte = .ok written ∧
      written.bytes =
        memory.bytes.take address ++ [byte] ++ memory.bytes.drop (address + 1) := by
  have hlt : address < 256 := h
  refine ⟨⟨memory.cells.set address byte⟩, dif_pos hlt, ?_⟩
  simp only [bytes, Vector.toList_set, List.set_eq_take_append_cons_drop, Vector.length_toList,
    hlt, if_true, List.append_assoc, List.singleton_append]

/-- **Bytes that fit can be written**, and then they are in memory from the address on, with
    all other cells as they were. -/
theorem bytes_writeAll (memory : Memory) {address : Nat} {bytes : List UInt8}
    (h : address + bytes.length ≤ capacity) :
    ∃ written, memory.writeAll address bytes = .ok written ∧
      written.bytes =
        memory.bytes.take address ++ bytes ++ memory.bytes.drop (address + bytes.length) := by
  induction bytes generalizing memory address with
  | nil => exact ⟨memory, rfl, by simp⟩
  | cons byte rest ih =>
    rw [List.length_cons] at h
    have hroom : address + 1 + rest.length ≤ capacity := by omega
    obtain ⟨begun, hwrite, hbegun⟩ := memory.bytes_write (show address < capacity by omega) byte
    obtain ⟨written, hrest, hbytes⟩ := ih begun hroom
    refine ⟨written, by rw [writeAll, hwrite]; exact hrest, ?_⟩
    -- The first byte is the last one before the address from which the others are written.
    have hlength : (memory.bytes.take address ++ [byte]).length = address + 1 := by
      rw [List.length_append, List.length_take, length_bytes, List.length_singleton]
      omega
    rw [hbytes, hbegun, List.take_left' hlength, ← List.drop_drop, List.drop_left' hlength,
      List.drop_drop, List.length_cons, Nat.add_right_comm, Nat.add_assoc address,
      List.append_assoc _ [byte], List.singleton_append]

end Memory

/-! ## The table of all opcode bytes -/

namespace Instruction

/-- What the table says about an instruction. -/
structure Entry where
  instruction : Instruction
  category : Category
  operandCount : Nat

/-- The entry of an instruction, read off the bits of its opcode. -/
def entry (instruction : Instruction) : Entry :=
  ⟨instruction, .ofOpcode instruction.opcode, (instruction.opcode >>> 6).toNat⟩

/-- Enters instructions into a table, in order. An entry takes the place of an earlier one with
    the same opcode. -/
def enter (table : Vector (Option Entry) 256) (instructions : List Instruction) :
    Vector (Option Entry) 256 :=
  instructions.foldl
    (fun table instruction =>
      table.set instruction.opcode.toNat (some instruction.entry) instruction.opcode.toNat_lt)
    table

/-- The table of all opcode bytes, which has no entry where there is no instruction. -/
def table : Vector (Option Entry) 256 :=
  enter (Vector.replicate 256 none) all

/-- The entry of an opcode byte. -/
def lookup? (opcode : UInt8) : Option Entry :=
  have := opcode.toNat_lt
  table[opcode.toNat]

variable {instruction : Instruction} {instructions : List Instruction} {opcode : UInt8}

theorem ofOpcode?_eq_none_iff :
    ofOpcode? opcode = none ↔ ∀ instruction : Instruction, instruction.opcode ≠ opcode := by
  rw [Option.eq_none_iff_forall_ne_some]
  exact forall_congr' fun instruction => not_congr ofOpcode?_eq_some_iff

theorem operandCount_cases (instruction : Instruction) :
    instruction.operandCount = 0 ∨ instruction.operandCount = 1 ∨
      instruction.operandCount = 2 := by
  have htwo := instruction.operandCount_le_two
  omega

theorem enter_cons (table : Vector (Option Entry) 256) :
    enter table (instruction :: instructions) =
      enter (table.set instruction.opcode.toNat (some instruction.entry)
        instruction.opcode.toNat_lt) instructions := rfl

/-- A byte that is no opcode of the instructions keeps its place. -/
theorem getElem_enter_of_ne (table : Vector (Option Entry) 256) (hlt : opcode.toNat < 256)
    (h : ∀ instruction ∈ instructions, instruction.opcode ≠ opcode) :
    (enter table instructions)[opcode.toNat] = table[opcode.toNat] := by
  induction instructions generalizing table with
  | nil => rfl
  | cons first rest ih =>
    obtain ⟨hfirst, hrest⟩ := List.forall_mem_cons.mp h
    have hne : first.opcode.toNat ≠ opcode.toNat := fun heq => hfirst (UInt8.toNat_inj.mp heq)
    rw [enter_cons, ih _ hrest]
    exact Vector.getElem_set_ne _ _ hne

/-- No instruction that is entered later has the same opcode, so an entry stays. -/
theorem getElem_enter_of_mem (table : Vector (Option Entry) 256)
    (hlt : instruction.opcode.toNat < 256) (h : instruction ∈ instructions) :
    (enter table instructions)[instruction.opcode.toNat] = some instruction.entry := by
  induction instructions generalizing table with
  | nil => cases h
  | cons first rest ih =>
    rw [enter_cons]
    by_cases hlater : instruction ∈ rest
    · exact ih _ hlater
    obtain rfl : instruction = first := (List.mem_cons.mp h).resolve_right hlater
    have hother : ∀ other ∈ rest, other.opcode ≠ instruction.opcode := by
      intro other hmem hopcode
      rw [opcode_injective hopcode] at hmem
      exact hlater hmem
    rw [getElem_enter_of_ne _ hlt hother]
    exact Vector.getElem_set_self _

/-- **The table is the search among all instructions.** -/
theorem lookup?_eq (opcode : UInt8) : lookup? opcode = (ofOpcode? opcode).map entry := by
  cases hfound : ofOpcode? opcode with
  | some instruction =>
    obtain rfl := ofOpcode?_eq_some_iff.mp hfound
    exact getElem_enter_of_mem _ _ instruction.mem_all
  | none =>
    have hother := ofOpcode?_eq_none_iff.mp hfound
    exact (getElem_enter_of_ne _ opcode.toNat_lt fun instruction _ => hother instruction).trans
      (Vector.getElem_replicate _)

end Instruction

/-! ## Decoding by the table -/

namespace Operation

/-- Reads operands behind an address into two places, one after the other. A place that is not
    read stays zero. -/
def readOperands (memory : Memory) (address count : Nat) : Except Fault (Vector UInt8 2) :=
  (List.range (min count 2)).foldlM
    (fun operands index => do
      let byte ← memory.read (address + 1 + index)
      return operands.setIfInBounds index byte)
    #v[0, 0]

theorem readOperands_one (memory : Memory) (address : Nat) :
    readOperands memory address 1 = (do
      let first ← memory.read (address + 1)
      return #v[first, 0]) := by
  show (memory.read (address + 1) >>= _) >>= _ = _
  cases memory.read (address + 1) with
  | error fault => rfl
  | ok first => rfl

theorem readOperands_two (memory : Memory) (address : Nat) :
    readOperands memory address 2 = (do
      let first ← memory.read (address + 1)
      let second ← memory.read (address + 2)
      return #v[first, second]) := by
  show (memory.read (address + 1) >>= _) >>= _ = _
  cases memory.read (address + 1) with
  | error fault => rfl
  | ok first =>
    show (memory.read (address + 2) >>= _) >>= _ = _
    cases memory.read (address + 2) with
    | error fault => rfl
    | ok second => rfl

/-- Decodes the operation at an address by the table of all opcode bytes. -/
def decodeByTable (memory : Memory) (address : Nat) : Except Fault Operation := do
  let raw ← memory.read address
  match Instruction.lookup? raw with
  | none => throw (.unknownOpcode raw)
  | some entry =>
    let operands ← readOperands memory address entry.operandCount
    return { instruction := entry.instruction, category := entry.category,
             operandCount := entry.operandCount, raw,
             first := operands[0], second := operands[1] }

/-- **Both forms of decoding agree.** -/
theorem decodeByTable_eq (memory : Memory) (address : Nat) :
    decodeByTable memory address = decode memory address := by
  unfold decodeByTable decode
  cases memory.read address with
  | error fault => rfl
  | ok raw =>
    rw [ok_bind, ok_bind, Instruction.lookup?_eq]
    cases Instruction.ofOpcode? raw with
    | none => rfl
    | some instruction =>
      have hcount : instruction.entry.operandCount = instruction.operandCount := rfl
      simp only [Option.map_some, hcount]
      -- The loop makes as many rounds as there are operands: none, one or two.
      rcases instruction.operandCount_cases with hnone | hone | hboth
      · rw [hnone]
        rfl
      · rw [hone, readOperands_one]
        cases memory.read (address + 1) with
        | error fault => rfl
        | ok first => rfl
      · rw [hboth, readOperands_two]
        cases memory.read (address + 1) with
        | error fault => rfl
        | ok first =>
          simp only [ok_bind]
          cases memory.read (address + 2) with
          | error fault => rfl
          | ok second => rfl

/-! ## What decoding finds -/

section Found

variable {memory : Memory} {address : Nat} {instruction : Instruction}

/-- The machine that stands at an address of a memory. -/
def standing (memory : Memory) (address : Nat) : Machine :=
  { memory, pc := UInt64.ofNat address }

theorem toNat_pc_standing (memory : Memory) (h : address < Memory.capacity) :
    (standing memory address).pc.toNat = address :=
  UInt64.toNat_ofNat_of_lt' (Nat.lt_trans h (by decide))

theorem decode_standing (h : address < Memory.capacity) :
    (standing memory address).decode = decode memory address := by
  unfold Machine.decode
  rw [toNat_pc_standing memory h]
  rfl

theorem getElem?_bytes_standing (h : address < Memory.capacity) :
    memory.bytes[address]? = some ((standing memory address).ahead 0) := by
  unfold Machine.ahead
  rw [toNat_pc_standing memory h]
  exact memory.getElem?_bytes h

/-- Decoding, by the byte at the address: there is none, or it is no opcode, or it is one whose
    operands do not fit, or the bytes from there on are an operation. -/
theorem decode_eq (memory : Memory) (address : Nat) :
    decode memory address =
      match memory.bytes[address]? with
      | none => .error (.memoryAddress address)
      | some byte =>
        match Instruction.ofOpcode? byte with
        | none => .error (.unknownOpcode byte)
        | some instruction =>
          if Memory.capacity < address + instruction.width then
            .error (.memoryAddress Memory.capacity)
          else .ok ((standing memory address).operation instruction) := by
  rcases Nat.lt_or_ge address Memory.capacity with hlt | hge
  · have hpc := toNat_pc_standing memory hlt
    have hinside : (standing memory address).pc.toNat < 256 := by
      rw [hpc]
      exact hlt
    rw [← decode_standing hlt, getElem?_bytes_standing hlt]
    -- What the machine decodes where it stands is known, case by case.
    cases hknown : Instruction.ofOpcode? ((standing memory address).ahead 0) with
    | none =>
      simp only [hknown]
      exact Machine.decode_of_unknown _ hinside hknown
    | some instruction =>
      simp only [hknown]
      have hwidth : instruction.width = 1 + instruction.operandCount := rfl
      have hcapacity : Memory.capacity = 256 := rfl
      split
      · exact Machine.decode_of_short _ hinside hknown (by omega)
      · exact Machine.decode_of_fits _ hknown (by omega)
  · rw [memory.getElem?_bytes_eq_none_iff.mpr hge]
    unfold decode
    rw [memory.read_of_ge hge]
    rfl

/-- Decoding succeeds exactly at an opcode byte with all its operands behind it in memory. -/
theorem decode_eq_ok_iff {operation : Operation} :
    decode memory address = .ok operation ↔
      ∃ instruction : Instruction, memory.bytes[address]? = some instruction.opcode ∧
        address + instruction.width ≤ Memory.capacity ∧
        operation = (standing memory address).operation instruction := by
  rw [decode_eq]
  constructor
  · intro h
    split at h
    · cases h
    next byte hbyte =>
    split at h
    · cases h
    next instruction hknown =>
    split at h
    · cases h
    next hfits =>
    obtain rfl := Instruction.ofOpcode?_eq_some_iff.mp hknown
    exact ⟨instruction, hbyte, Nat.not_lt.mp hfits, (Except.ok.inj h).symm⟩
  · rintro ⟨instruction, hbyte, hfits, rfl⟩
    simp only [hbyte, Instruction.ofOpcode?_opcode, Nat.not_lt.mpr hfits, if_false]

/-- **Decoding fails for three reasons**, and each of them has its fault. -/
theorem decode_eq_error_iff {fault : Fault} :
    decode memory address = .error fault ↔
      (Memory.capacity ≤ address ∧ fault = .memoryAddress address) ∨
      (∃ byte, memory.bytes[address]? = some byte ∧
        (∀ instruction : Instruction, instruction.opcode ≠ byte) ∧ fault = .unknownOpcode byte) ∨
      ∃ instruction : Instruction, memory.bytes[address]? = some instruction.opcode ∧
        Memory.capacity < address + instruction.width ∧
        fault = .memoryAddress Memory.capacity := by
  rw [decode_eq]
  constructor
  · intro h
    split at h
    · next hnone =>
      exact .inl ⟨memory.getElem?_bytes_eq_none_iff.mp hnone, (Except.error.inj h).symm⟩
    next byte hbyte =>
    split at h
    · next hunknown =>
      exact .inr (.inl ⟨byte, hbyte, Instruction.ofOpcode?_eq_none_iff.mp hunknown,
        (Except.error.inj h).symm⟩)
    next instruction hknown =>
    obtain rfl := Instruction.ofOpcode?_eq_some_iff.mp hknown
    split at h
    · next hcut => exact .inr (.inr ⟨instruction, hbyte, hcut, (Except.error.inj h).symm⟩)
    · cases h
  · rintro (⟨hge, rfl⟩ | ⟨byte, hbyte, hunknown, rfl⟩ | ⟨instruction, hbyte, hcut, rfl⟩)
    · rw [memory.getElem?_bytes_eq_none_iff.mpr hge]
    · simp only [hbyte, Instruction.ofOpcode?_eq_none_iff.mpr hunknown]
    · simp only [hbyte, Instruction.ofOpcode?_opcode, hcut, if_true]

/-- The operands of an operation are the bytes behind its opcode. -/
theorem operands_standing (h : address + instruction.width ≤ Memory.capacity) :
    ((standing memory address).operation instruction).operands =
      (memory.bytes.drop (address + 1)).take instruction.operandCount := by
  have hwidth : instruction.width = 1 + instruction.operandCount := rfl
  have hpc := toNat_pc_standing memory (show address < Memory.capacity by omega)
  have hahead (offset : Nat) : (standing memory address).ahead offset =
      memory.cell (UInt8.ofNat (address + offset)) := by
    unfold Machine.ahead
    rw [hpc]
    rfl
  rcases instruction.operandCount_cases with hnone | hone | hboth
  · simp [operands, Machine.operation, hnone]
  · rw [hone, memory.take_drop_bytes (by omega)]
    simp [operands, Machine.operation, hone, hahead]
  · rw [hboth, memory.take_drop_bytes (by omega), memory.take_drop_bytes (by omega)]
    simp only [operands, Machine.operation, hboth, hahead]
    rfl

/-! ## Writing and decoding -/

/-- What has been written is decoded again. -/
theorem decode_of_written (memory : Memory) {operands : List UInt8}
    (hlength : operands.length = instruction.operandCount)
    (hfits : address + instruction.width ≤ Memory.capacity) :
    ∃ written, memory.writeAll address (instruction.opcode :: operands) = .ok written ∧
      decode written address = .ok ((standing written address).operation instruction) ∧
      ((standing written address).operation instruction).operands = operands := by
  have hwidth : (instruction.opcode :: operands).length = instruction.width := by
    rw [List.length_cons, hlength, Nat.add_comm]
    rfl
  obtain ⟨written, hwritten, hbytes⟩ := memory.bytes_writeAll (hwidth.symm ▸ hfits)
  have hbefore : (memory.bytes.take address).length = address := by
    rw [List.length_take, Memory.length_bytes]
    omega
  -- The bytes from the address on are those that were written, and then those of old.
  have hdrop : written.bytes.drop address =
      instruction.opcode :: (operands ++ memory.bytes.drop (address + instruction.width)) := by
    rw [hbytes, hwidth, List.append_assoc, List.drop_left' hbefore, List.cons_append]
  have hfirst : written.bytes[address]? = some instruction.opcode := by
    rw [← List.head?_drop, hdrop, List.head?_cons]
  refine ⟨written, hwritten, decode_eq_ok_iff.mpr ⟨instruction, hfirst, hfits, rfl⟩, ?_⟩
  rw [operands_standing hfits, ← List.drop_drop, hdrop, List.drop_one, List.tail_cons,
    List.take_left' hlength]

/-- What is decoded is what is in memory. -/
theorem bytes_of_decode {operation : Operation} (h : decode memory address = .ok operation) :
    address + operation.width ≤ Memory.capacity ∧
      (memory.bytes.drop address).take operation.width =
        operation.instruction.opcode :: operation.operands := by
  obtain ⟨instruction, hbyte, hfits, rfl⟩ := decode_eq_ok_iff.mp h
  refine ⟨hfits, ?_⟩
  obtain ⟨hlt, hget⟩ := List.getElem?_eq_some_iff.mp hbyte
  have hwidth : ((standing memory address).operation instruction).width =
      instruction.operandCount + 1 := Nat.add_comm 1 _
  rw [hwidth, operands_standing hfits, List.drop_eq_getElem_cons hlt, List.take_succ_cons, hget]
  rfl

/-- **Decoding undoes encoding, and encoding undoes decoding.** At every address of every memory
    decoding is the same with the table of all opcode bytes. An opcode, written with as many
    operand bytes as its two highest bits say, is decoded as its instruction with these operands,
    as long as they fit. What is decoded stands in memory as the opcode of its instruction and
    its operands, within memory. And decoding fails exactly behind memory, at a byte that is no
    opcode, and at an opcode whose operands run over the end of memory. -/
theorem decode_inverts_encoding (memory : Memory) (address : Nat) :
    decodeByTable memory address = decode memory address ∧
    (∀ (instruction : Instruction) (operands : List UInt8),
      operands.length = (instruction.opcode >>> 6).toNat →
      address + (1 + operands.length) ≤ Memory.capacity →
      ∃ written operation,
        memory.writeAll address (instruction.opcode :: operands) = .ok written ∧
        decode written address = .ok operation ∧
        operation.instruction = instruction ∧ operation.raw = instruction.opcode ∧
        operation.operandCount = operands.length ∧
        operation.category = .ofOpcode instruction.opcode ∧
        operation.operands = operands) ∧
    (∀ operation, decode memory address = .ok operation →
      address + operation.width ≤ Memory.capacity ∧
      (memory.bytes.drop address).take operation.width =
        operation.instruction.opcode :: operation.operands) ∧
    ∀ fault, decode memory address = .error fault ↔
      (Memory.capacity ≤ address ∧ fault = .memoryAddress address) ∨
      (∃ byte, memory.bytes[address]? = some byte ∧
        (∀ instruction : Instruction, instruction.opcode ≠ byte) ∧ fault = .unknownOpcode byte) ∨
      ∃ instruction : Instruction, memory.bytes[address]? = some instruction.opcode ∧
        Memory.capacity < address + instruction.width ∧
        fault = .memoryAddress Memory.capacity := by
  refine ⟨decodeByTable_eq memory address, ?_, fun _ => bytes_of_decode,
    fun _ => decode_eq_error_iff⟩
  intro instruction operands hlength hroom
  have hfits : address + instruction.width ≤ Memory.capacity := by
    rw [hlength] at hroom
    exact hroom
  obtain ⟨written, hwritten, hdecode, hoperands⟩ := decode_of_written memory hlength hfits
  obtain ⟨other, hbyte, -, hother⟩ := decode_eq_ok_iff.mp hdecode
  obtain rfl : instruction = other := congrArg Operation.instruction hother
  have hraw : (standing written address).ahead 0 = instruction.opcode := by
    rw [getElem?_bytes_standing (by omega)] at hbyte
    exact Option.some.inj hbyte
  exact ⟨written, _, hwritten, hdecode, rfl, hraw, hlength.symm, rfl, hoperands⟩

/-- A load fits into the last three cells, also over what was there before. One cell further on
    its second operand is missing. -/
theorem decode_inverts_encoding_last_cells :
    let memory := Memory.blank.setCell 254 0x82
    (([7, 9] : List UInt8).length = (Instruction.ldi.opcode >>> 6).toNat ∧
      253 + (1 + ([7, 9] : List UInt8).length) ≤ Memory.capacity) ∧
    (∃ written operation,
      memory.writeAll 253 (Instruction.ldi.opcode :: [7, 9]) = .ok written ∧
      decode written 253 = .ok operation ∧ operation.instruction = .ldi ∧
      operation.operands = [7, 9]) ∧
    decode memory 254 = .error (.memoryAddress Memory.capacity) := by
  intro memory
  obtain ⟨-, hencoding, -, -⟩ := decode_inverts_encoding memory 253
  obtain ⟨-, -, -, herrors⟩ := decode_inverts_encoding memory 254
  obtain ⟨written, operation, hwritten, hdecode, hinstruction, -, -, -, hoperands⟩ :=
    hencoding .ldi [7, 9] (by decide) (by decide)
  refine ⟨by decide, ⟨written, operation, hwritten, hdecode, hinstruction, hoperands⟩, ?_⟩
  exact (herrors _).mpr (.inr (.inr ⟨.ldi, by decide +kernel, by decide, rfl⟩))

end Found

end Operation

end ByteMachine
