import ByteMachine.Proofs.Addresses
import ByteMachine.Proofs.History
import ByteMachine.Proofs.InPlace
/-!
# The program counter stays near memory

The program counter has room for 64 bits, and it is set from sums, registers and bytes of the
stack. But an instruction is carried out only if all its bytes are in memory, so the address
behind it is at most 256, and every other target is a byte. A step that succeeds therefore
leaves the program counter inside memory or right behind it, wherever it was before. From
there on no number that a run works out as an address is far away from memory, and the only
address that it can miss is the first one behind.

## Main definitions

- `Noted.Within`: no address that was worked out is above a limit.
- `StepConfined`, `RunConfined`: what holds for a step and for a run that start inside memory
  or right behind it.

## Main statements

- `pc_of_step_le`: a step that succeeds leaves the program counter at most at 256.
- `pc_never_runs_away`: so all steps and runs from there are confined.
-/

namespace ByteMachine

/-! ## Addresses within a limit -/

namespace Noted

/-- No address that was worked out is above the limit. -/
def Within {α : Type} (limit : Nat) (computation : Noted α) : Prop :=
  ∀ number ∈ computation.addresses, number ≤ limit

section Parts

variable {α β : Type} {limit : Nat}

theorem within_pure (value : α) : Within limit (pure value) := by
  intro number hmem
  cases hmem

theorem within_address {number : Nat} (h : number ≤ limit) : Within limit (address number) :=
  List.forall_mem_singleton.mpr h

theorem within_addressAt {machine : Machine} {offset : Nat}
    (h : machine.pc.toNat + offset ≤ limit) : Within limit (addressAt machine offset) :=
  List.forall_mem_singleton.mpr h

theorem Within.bind {first : Noted α} {next : α → Noted β} (hfirst : Within limit first)
    (hnext : Within limit (next first.value)) : Within limit (first >>= next) :=
  List.forall_mem_append.mpr ⟨hfirst, hnext⟩

/-- A second computation notes addresses only if the first one has an outcome for it. -/
theorem Within.run_bind {first : ExceptT Fault Noted α} {next : α → ExceptT Fault Noted β}
    (hfirst : Within limit first.run)
    (hnext : ∀ value, first.run.value = .ok value → Within limit (next value).run) :
    Within limit (first >>= next).run := by
  rw [ExceptT.run_bind]
  apply hfirst.bind
  cases hvalue : first.run.value with
  | error fault => exact within_pure _
  | ok value => exact hnext value hvalue

theorem within_check (outcome : Except Fault α) : Within limit (check outcome).run :=
  within_pure outcome

theorem within_note {number : Nat} (h : number ≤ limit) : Within limit (note number).run :=
  (within_address h).bind (within_pure _)

theorem within_read (memory : Memory) {number : Nat} (h : number ≤ limit) :
    Within limit (read memory number).run :=
  (within_note h).run_bind fun _ _ => within_check _

theorem within_write (memory : Memory) {number : Nat} (h : number ≤ limit) (value : UInt8) :
    Within limit (write memory number value).run :=
  (within_note h).run_bind fun _ _ => within_check _

theorem within_operand (memory : Memory) {start index : Nat} (h : start + (index + 1) ≤ limit)
    (count : Nat) : Within limit (operand memory start count index).run := by
  unfold operand
  split
  · exact within_read memory h
  · exact within_pure _

/-- Decoding looks at most two cells ahead. -/
theorem within_decode (memory : Memory) {start : Nat} (h : start + 2 ≤ limit) :
    Within limit (decode memory start).run := by
  apply (within_read memory (by omega)).run_bind
  intro raw _
  split
  · exact within_check _
  · apply (within_operand memory (by omega) _).run_bind
    intro first _
    apply (within_operand memory h _).run_bind
    intro second _
    exact within_pure _

theorem within_traceCell {machine : Machine} {offset : Nat}
    (h : machine.pc.toNat + offset ≤ limit) : Within limit (traceCell machine offset) :=
  (within_addressAt h).bind (within_pure _)

/-- A trace shows the two cells behind the program counter as well. -/
theorem within_trace {machine : Machine} (h : machine.pc.toNat + 2 ≤ limit) :
    Within limit (trace machine) := by
  apply (within_traceCell (by omega)).bind
  apply (within_traceCell (by omega)).bind
  apply (within_traceCell h).bind
  exact within_pure _

theorem within_stop {machine : Machine} (h : machine.pc.toNat + 2 ≤ limit) (sink : Sink)
    (fault : Fault) : Within limit (stop machine sink fault) := by
  cases fault
  case unknownOpcode opcode => exact (within_trace h).bind (within_pure _)
  all_goals exact within_pure _

section Data

variable (hbytes : 255 ≤ limit)
include hbytes

/-- Data is addressed by bytes. -/
theorem toNat_le (byte : UInt8) : byte.toNat ≤ limit :=
  Nat.le_trans (Nat.le_of_lt_succ byte.toNat_lt) hbytes

theorem within_push (memory : Memory) (registers : Registers) (bound value : UInt8) :
    Within limit (push memory registers bound value).run := by
  unfold push
  dsimp only
  split
  · apply (within_write memory (toNat_le hbytes _) value).run_bind
    intro memory _
    exact within_pure _
  · exact within_check _

theorem within_pop (memory : Memory) (registers : Registers) :
    Within limit (pop memory registers).run := by
  unfold pop
  dsimp only
  split
  · apply (within_read memory (toNat_le hbytes _)).run_bind
    intro value _
    exact within_pure _
  · exact within_check _

theorem within_control (machine : Machine) (operation : Operation) (behind : Nat) :
    Within limit (control machine operation behind).run := by
  unfold control
  split
  · apply (within_check _).run_bind
    intro target _
    apply (within_check _).run_bind
    intro back _
    apply (within_push hbytes _ _ _ _).run_bind
    intro stack _
    exact within_pure _
  · apply (within_pop hbytes _ _).run_bind
    intro stack _
    exact within_pure _
  · exact within_check _

theorem within_transfer (machine : Machine) (operation : Operation) :
    Within limit (transfer machine operation).run := by
  unfold transfer
  split
  · apply (within_check _).run_bind
    intro source _
    apply (within_read _ (toNat_le hbytes _)).run_bind
    intro value _
    apply (within_check _).run_bind
    intro registers _
    exact within_pure _
  · apply (within_check _).run_bind
    intro target _
    apply (within_check _).run_bind
    intro value _
    apply (within_write _ (toNat_le hbytes _) _).run_bind
    intro memory _
    exact within_pure _
  · apply (within_check _).run_bind
    intro value _
    apply (within_push hbytes _ _ _ _).run_bind
    intro stack _
    exact within_pure _
  · apply (within_check _).run_bind
    intro _ _
    apply (within_pop hbytes _ _).run_bind
    intro stack _
    apply (within_check _).run_bind
    intro registers _
    exact within_pure _
  · exact within_check _

/-- Besides the address behind the operation, only data is addressed. -/
theorem within_effect {machine : Machine} {operation : Operation}
    (hbehind : machine.pc.toNat + operation.width ≤ limit) :
    Within limit (effect machine operation).run := by
  apply ((within_addressAt hbehind).bind (within_pure _)).run_bind
  intro behind _
  cases operation.category with
  | arithmetic => exact within_check _
  | control => exact within_control hbytes machine operation behind
  | simple =>
    apply (within_transfer hbytes machine operation).run_bind
    intro outcome _
    exact within_pure _

theorem within_execute {machine : Machine} {operation : Operation}
    (hbehind : machine.pc.toNat + operation.width ≤ limit)
    (hnext : ∀ effect, machine.effect operation = .ok effect → effect.next ≤ limit)
    (sink : Sink) : Within limit (execute machine operation sink) := by
  apply (within_effect hbytes hbehind).bind
  rw [value_effect]
  cases heffect : machine.effect operation with
  | error fault => exact within_pure _
  | ok effect =>
    apply (within_address (hnext effect heffect)).bind
    split
    · exact within_pure _
    · exact within_pure _

end Data

end Parts

end Noted

namespace Machine

open Noted (Within)

variable {machine next later : Machine} {sink out rest : Sink}

/-! ## Where a step goes on -/

/-- Decoding succeeds only at an instruction with all its operands in memory. -/
theorem exists_of_decode {operation : Operation} (h : machine.decode = .ok operation) :
    ∃ instruction : Instruction, machine.pc.toNat + instruction.operandCount < 256 ∧
      operation = machine.operation instruction := by
  rcases Nat.lt_or_ge machine.pc.toNat 256 with hlt | hge
  · rcases machine.decode_cases hlt with hunknown | hshort | ⟨instruction, hfits, hdecode⟩
    · rw [hunknown] at h
      cases h
    · rw [hshort] at h
      cases h
    · rw [hdecode] at h
      cases h
      exact ⟨instruction, hfits, rfl⟩
  · -- There is not even an opcode.
    unfold decode Operation.decode at h
    rw [machine.memory.read_of_ge hge] at h
    cases h

/-- An operation that was decoded goes on where its instruction does. -/
theorem next_of_effect {instruction : Instruction} {opcode : UInt8} {effect : Effect}
    (hfits : machine.pc.toNat + instruction.operandCount < 256)
    (h : ({ machine with ir := opcode } : Machine).effect (machine.operation instruction) =
      .ok effect) : effect.next = machine.landing instruction := by
  rw [machine.effect_fetched instruction opcode hfits] at h
  obtain ⟨-, rfl⟩ := verdict_eq_ok_iff.mp h
  rfl

/-- **A step that succeeds leaves the program counter at most right behind memory**, wherever
    it was before. -/
theorem pc_of_step_le (h : machine.step sink = ⟨next, out, .ok ()⟩) : next.pc.toNat ≤ 256 := by
  obtain ⟨instruction, hexecutes, -, -, rfl⟩ := exists_executes_of_step h
  show (UInt64.ofNat (machine.landing instruction)).toNat ≤ 256
  rw [toNat_landing hexecutes.fits]
  exact landing_le hexecutes.fits

/-! ## Steps from near memory -/

/-- What holds for a step from inside memory or right behind it, whether it succeeds or not. -/
structure StepConfined (noted : Noted (Reply Unit)) (reply : Reply Unit) : Prop where
  /-- The numbers that are noted are those of the step. -/
  value : noted.value = reply
  /-- None of them is more than two above the first address behind memory. -/
  within : Within 258 noted
  /-- The program counter stays there. -/
  pc : reply.machine.pc.toNat ≤ 256
  /-- An address that is missed is the first one behind memory. -/
  missed : ∀ address, reply.result = .error (.memoryAddress address) → address = 256

/-- An address that a step misses is the one that the machine is at, if it is behind memory,
    or the one that an instruction runs into. -/
theorem missed_of_step_error {address : Nat} (h : machine.pc.toNat ≤ 256)
    (hresult : (machine.step sink).result = .error (.memoryAddress address)) :
    address = 256 := by
  rcases hstep : machine.step sink with ⟨after, out, result⟩
  rw [hstep] at hresult
  subst hresult
  obtain ⟨-, ⟨hfault, -⟩ | ⟨-, hrefused⟩⟩ := reply_of_step_error hstep
  · rcases fault?_cases hfault with ⟨hge, hfetch⟩ | ⟨-, -, hunknown⟩ | ⟨_, -, hmem⟩
    · cases hfetch
      exact Nat.le_antisymm h hge
    · cases hunknown
    · simpa [refusals] using hmem
  · cases hrefused

theorem within_step (h : machine.pc.toNat ≤ 256) (sink : Sink) :
    Within 258 (Noted.step machine sink) := by
  have hahead : machine.pc.toNat + 2 ≤ 258 := Nat.add_le_add_right h 2
  apply (Noted.within_read machine.memory (by omega)).bind
  rw [Noted.value_read]
  cases machine.memory.read machine.pc.toNat with
  | error fault => exact Noted.within_pure _
  | ok opcode =>
    apply (Noted.within_decode machine.memory hahead).bind
    rw [Noted.value_decode]
    cases hdecode : Operation.decode machine.memory machine.pc.toNat with
    | error fault => exact Noted.within_pure _
    | ok operation =>
      -- The operands have been read, so the sum behind them is not larger than 256.
      obtain ⟨instruction, hfits, rfl⟩ := exists_of_decode hdecode
      have hbehind : machine.pc.toNat + (1 + instruction.operandCount) ≤ 258 := by omega
      apply (Noted.within_execute (by decide) hbehind ?_ sink).bind
      · split
        · exact Noted.within_pure _
        · exact Noted.within_pure _
      · intro effect heffect
        rw [next_of_effect hfits heffect]
        exact Nat.le_trans (landing_le hfits) (by decide)

theorem StepConfined.of_pc_le (h : machine.pc.toNat ≤ 256) (sink : Sink) :
    StepConfined (Noted.step machine sink) (machine.step sink) where
  value := Noted.value_step machine sink
  within := within_step h sink
  pc := by
    cases hresult : (machine.step sink).result with
    | ok => exact pc_of_step_le (step_eq_of_ok hresult)
    | error fault =>
      rw [step_of_error hresult]
      exact h
  missed _ := missed_of_step_error h

theorem pc_of_steps_le {history : List Transition} (h : machine.pc.toNat ≤ 256)
    (hsteps : Steps machine sink history later rest) : later.pc.toNat ≤ 256 := by
  cases hsteps with
  | refl => exact h
  | snoc _ hstep => exact pc_of_step_le hstep

/-! ## Runs from near memory -/

/-- What holds for a run from inside memory or right behind it, as far as its limit goes. -/
structure RunConfined (noted : Noted Run) (run : Run) : Prop where
  /-- The numbers that are noted are those of the run, its trace line included. -/
  value : noted.value = run
  /-- None of them is more than two above the first address behind memory. -/
  within : Within 258 noted
  /-- The program counter ends there. -/
  pc : run.machine.pc.toNat ≤ 256
  /-- An address that ends the run is the first one behind memory. -/
  missed : ∀ address, run.halt = some (.fault (.memoryAddress address)) → address = 256

/-- A computation before a run adds its own addresses and nothing else. -/
theorem RunConfined.behind {α : Type} {first : Noted α} {continued : α → Noted Run} {run : Run}
    (hfirst : Within 258 first) (h : RunConfined (continued first.value) run) :
    RunConfined (first >>= continued) run :=
  ⟨h.value, hfirst.bind h.within, h.pc, h.missed⟩

/-- A run is stopped where the machine is, and reports the fault that it is stopped on, unless
    that is about an opcode. -/
theorem RunConfined.of_stop {fault : Fault} (h : machine.pc.toNat ≤ 256)
    (hfault : ∀ address, fault = .memoryAddress address → address = 256) (sink : Sink) :
    RunConfined (Noted.stop machine sink fault) (machine.stop sink fault) where
  value := Noted.value_stop machine sink fault
  within := Noted.within_stop (Nat.add_le_add_right h 2) sink fault
  pc := by
    cases fault <;> exact h
  missed address hhalt := by
    apply hfault
    cases fault
    case memoryAddress =>
      cases hhalt
      rfl
    case unknownOpcode opcode =>
      unfold stop at hhalt
      dsimp only at hhalt
      split at hhalt <;> cases hhalt
    all_goals cases hhalt

/-- A run makes one step after the other, and each of them leaves the machine near memory. -/
theorem RunConfined.of_pc_le (limit : Nat) (h : machine.pc.toNat ≤ 256) (sink : Sink) :
    RunConfined (Noted.runFor limit machine sink) (machine.runFor limit sink) := by
  induction limit generalizing machine sink with
  | zero =>
    refine ⟨rfl, Noted.within_pure _, h, ?_⟩
    intro address hhalt
    unfold runFor at hhalt
    split at hhalt <;> cases hhalt
  | succ limit ih =>
    unfold Noted.runFor runFor
    cases machine.running with
    | false =>
      refine ⟨rfl, Noted.within_pure _, h, ?_⟩
      intro address hhalt
      cases hhalt
    | true =>
      have hfirst := StepConfined.of_pc_le h sink
      apply RunConfined.behind hfirst.within
      rw [hfirst.value]
      have hpc := hfirst.pc
      have hmissed := hfirst.missed
      generalize machine.step sink = reply at hpc hmissed ⊢
      obtain ⟨next, out, result⟩ := reply
      cases result with
      | error fault =>
        apply RunConfined.of_stop hpc
        intro address hfault
        exact hmissed address (congrArg Except.error hfault)
      | ok => exact ih hpc out

/-- **The program counter never runs away.** A step that succeeds leaves it at most right behind
    memory, from wherever the machine was. From there on it stays there in every state, whatever
    the program does to itself; no address and no sum with the program counter is above 258,
    neither in a step nor in the trace line of a run; and an address that is missed is always
    256. -/
theorem pc_never_runs_away (machine : Machine) (sink : Sink) :
    ((machine.step sink).result = .ok () → (machine.step sink).machine.pc.toNat ≤ 256) ∧
    (machine.pc.toNat ≤ 256 →
      (∀ history later rest, Steps machine sink history later rest →
        later.pc.toNat ≤ 256 ∧ StepConfined (Noted.step later rest) (later.step rest)) ∧
      ∀ limit, RunConfined (Noted.runFor limit machine sink) (machine.runFor limit sink)) := by
  refine ⟨?_, ?_⟩
  · intro hok
    exact pc_of_step_le (step_eq_of_ok hok)
  · intro h
    refine ⟨?_, fun limit => .of_pc_le limit h sink⟩
    intro history later rest hsteps
    have hlater := pc_of_steps_le h hsteps
    exact ⟨hlater, .of_pc_le hlater rest⟩

/-- A machine in the last cell of memory makes one step, which leads right behind memory, and
    misses the first address there with the next. -/
theorem pc_never_runs_away_last_cell :
    let machine : Machine := { initial with pc := 255 }
    ((machine.step .unlimited).result = .ok () ∧
      (machine.step .unlimited).machine.pc.toNat ≤ 256) ∧
    machine.pc.toNat ≤ 256 ∧
    StepConfined (Noted.step machine .unlimited) (machine.step .unlimited) ∧
    RunConfined (Noted.runFor 2 machine .unlimited) (machine.runFor 2 .unlimited) ∧
    (machine.runFor 2 .unlimited).halt = some (.fault (.memoryAddress 256)) ∧
    (Noted.runFor 2 machine .unlimited).addresses = [255, 255, 256, 256, 256] :=
  have hlast : ({ initial with pc := 255 } : Machine).pc.toNat ≤ 256 := by decide
  have hok : (({ initial with pc := 255 } : Machine).step .unlimited).result = .ok () := rfl
  have hclaim := pc_never_runs_away { initial with pc := 255 } .unlimited
  ⟨⟨hok, hclaim.1 hok⟩, hlast, ((hclaim.2 hlast).1 [] _ _ .refl).2, (hclaim.2 hlast).2 2,
    by decide +kernel, by decide +kernel⟩

-- A trace line of a machine that stops in the last cell asks for two cells that are not there.
example :
    (Noted.runFor 1 { initial with pc := 255, memory := Memory.blank.setCell 255 0xFF }
      .unlimited).addresses = [255, 255, 255, 256, 257] := by
  decide +kernel

end Machine

end ByteMachine
