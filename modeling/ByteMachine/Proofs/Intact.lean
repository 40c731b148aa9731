import ByteMachine.Proofs.InPlace
import ByteMachine.Proofs.Stores
/-!
# Programs below the stack

A loaded program sets the limit of the stack, and the stack never grows into it. This
holds for a machine that is driven from outside in any way that leaves memory and the
limit alone: stepped with or without success, and between steps moved to another place
or given other registers, so the stack pointer may point anywhere before a PUSH.

## Main statements

- `Intact.of_driven`: what is kept while a machine is driven.
- `stack_spares_program`: the stack stays above the program, so a byte of the program
  changes only where an ST stores.
-/

namespace ByteMachine

/-- The step put a byte on the stack, and the cell for it is one behind the program. -/
def Transition.PutsBehind (program : Program) (transition : Transition) : Prop :=
  ∃ value, transition.after.memory =
      transition.before.memory.setCell transition.after.stackPointer value ∧
    transition.after.stackPointer.toNat + 1 = transition.before.stackPointer.toNat ∧
    program.length ≤ transition.after.stackPointer.toNat ∧
    transition.after.stackPointer.toNat ≤ 254

namespace Machine

/-- `Driven machine history later` says that `later` comes from `machine` by steps, into
    any sinks, and by changes made by hand. The history lists the successful steps, oldest
    first. A change by hand may be any that keeps memory and the stack limit. -/
inductive Driven (machine : Machine) : List Transition → Machine → Prop
  | refl : Driven machine [] machine
  | step {history : List Transition} {later next : Machine} {sink out : Sink} :
      Driven machine history later →
      later.step sink = ⟨next, out, .ok ()⟩ →
      Driven machine (history ++ [⟨later, next⟩]) next
  | fail {history : List Transition} {later next : Machine} {sink out : Sink} {fault : Fault} :
      Driven machine history later →
      later.step sink = ⟨next, out, .error fault⟩ →
      Driven machine history next
  | adjust {history : List Transition} {later changed : Machine} :
      Driven machine history later →
      changed.memory = later.memory →
      changed.stackLimit = later.stackLimit →
      Driven machine history changed

/-! ## One step -/

section Step

variable {machine next : Machine} {sink out : Sink} {program : Program}

/-- Above the limit of a program there is room only behind it, and a program that fills
    memory up to the last cell but one leaves none. -/
theorem length_lt_of_limitFor_lt {pointer : UInt8} (h : limitFor program < pointer) :
    program.length < pointer.toNat := by
  have hlt := UInt8.lt_iff_toNat_lt.mp h
  have hbyte := pointer.toNat_lt
  rw [toNat_limitFor] at hlt
  omega

/-- A step that puts a byte on the stack puts it behind the program. -/
theorem putsBehind_of_step (hlimit : machine.stackLimit = limitFor program)
    (hstep : machine.step sink = ⟨next, out, .ok ()⟩)
    (hput : Transition.carriesOut [.push, .call] ⟨machine, next⟩ = true) :
    Transition.PutsBehind program ⟨machine, next⟩ := by
  obtain ⟨instruction, hexecutes, hmemory, hregisters, -⟩ := memory_of_step hstep
  rw [carriesOut_of_executes hexecutes, List.contains_iff_mem] at hput
  have hroom := room_of_executes hput hexecutes
  have hlength : program.length < machine.stackPointer.toNat :=
    length_lt_of_limitFor_lt (hlimit ▸ hroom)
  have hpred := toNat_pred hroom
  have hbyte := machine.stackPointer.toNat_lt
  -- PUSH and CALL differ in the byte only.
  have hpointer : next.stackPointer = machine.stackPointer - 1 := by
    unfold stackPointer
    rw [hregisters]
    obtain rfl | rfl := eq_push_or_call hput
    · exact Registers.stackPointer_setStackPointer _ _
    · exact Registers.stackPointer_setStackPointer _ _
  have hstored : next.memory =
      machine.memory.setCell next.stackPointer (machine.storedByte instruction) := by
    rw [hmemory, memoryAfter_eq, hpointer]
    obtain rfl | rfl := eq_push_or_call hput
    · rfl
    · rfl
  refine ⟨machine.storedByte instruction, hstored, ?_⟩
  show next.stackPointer.toNat + 1 = machine.stackPointer.toNat ∧ _
  rw [hpointer]
  exact ⟨hpred, by omega, by omega⟩

theorem cell_of_step_below (hlimit : machine.stackLimit = limitFor program)
    (hstep : machine.step sink = ⟨next, out, .ok ()⟩) {address : UInt8}
    (hbelow : address.toNat < program.length)
    (hspared : ¬ Transition.StoresAt address ⟨machine, next⟩) :
    next.memory.cell address = machine.memory.cell address := by
  refine cell_of_step hstep hspared ?_
  -- The stack is behind the program, and the address is in it.
  intro hroom htarget
  have hlength : program.length < machine.stackPointer.toNat :=
    length_lt_of_limitFor_lt (hlimit ▸ hroom)
  have hpred := toNat_pred hroom
  rw [htarget] at hpred
  omega

end Step

/-! ## Driven machines -/

/-- What a program and a history of steps are for a machine that has been driven. -/
structure Intact (program : Program) (history : List Transition) (machine : Machine) :
    Prop where
  limit : machine.stackLimit = limitFor program
  puts : ∀ transition ∈ history, transition.carriesOut [.push, .call] = true →
    transition.PutsBehind program
  bytes : ∀ address : UInt8, (∀ transition ∈ history, ¬ transition.StoresAt address) →
    address.toNat < program.length →
      program.bytes[address.toNat]? = some (machine.memory.cell address)

theorem Intact.of_load (start : Machine) (program : Program) :
    Intact program [] (start.load program) where
  limit := rfl
  puts := by simp
  bytes := by
    intro address _ h
    have hbytes : address.toNat < program.bytes.length := h
    rw [cell_load, List.getD_eq_getElem?_getD, List.getElem?_eq_getElem hbytes]
    rfl

theorem Intact.congr {program : Program} {history : List Transition} {machine other : Machine}
    (h : Intact program history machine) (hmemory : other.memory = machine.memory)
    (hlimit : other.stackLimit = machine.stackLimit) : Intact program history other where
  limit := hlimit.trans h.limit
  puts := h.puts
  bytes := by
    rw [hmemory]
    exact h.bytes

/-- A step puts its byte behind the program, and what it does to the program it does by ST. -/
theorem Intact.snoc {program : Program} {history : List Transition} {machine next : Machine}
    {sink out : Sink} (h : Intact program history machine)
    (hstep : machine.step sink = ⟨next, out, .ok ()⟩) :
    Intact program (history ++ [⟨machine, next⟩]) next where
  limit := by
    obtain ⟨-, -, -, -, hlimit⟩ := memory_of_step hstep
    exact hlimit.trans h.limit
  puts := by
    refine List.forall_mem_append.mpr ⟨h.puts, List.forall_mem_singleton.mpr ?_⟩
    intro hput
    exact putsBehind_of_step h.limit hstep hput
  bytes := by
    intro address hspared hbelow
    obtain ⟨hearlier, hlast⟩ := List.forall_mem_append.mp hspared
    rw [List.forall_mem_singleton] at hlast
    rw [cell_of_step_below h.limit hstep hbelow hlast]
    exact h.bytes address hearlier hbelow

/-- However a machine is driven after a program has been loaded, the program stays intact. -/
theorem Intact.of_driven {start machine : Machine} {program : Program}
    {history : List Transition} (h : Driven (start.load program) history machine) :
    Intact program history machine := by
  induction h with
  | refl => exact .of_load start program
  | step _ hstep ih => exact ih.snoc hstep
  | @fail history later next sink out fault _ hstep ih =>
    -- A failed step has fetched and done nothing else.
    have herror : (later.step sink).result = .error fault := by rw [hstep]
    have hfetched : next = later.fetched := by
      rw [← step_of_error herror, hstep]
    rw [hfetched]
    exact ih.congr rfl rfl
  | adjust _ hmemory hlimit ih => exact ih.congr hmemory hlimit

/-- **The stack never overwrites the program.** Load a program into any machine and drive
    it: every PUSH and CALL that succeeds stores its byte behind the program and at 254 at
    the most, so a byte of the program that has changed was stored at by an ST. Above a
    program of 255 or 256 bytes no PUSH or CALL succeeds, wherever the stack pointer is. -/
theorem stack_spares_program {start machine : Machine} {program : Program}
    {history : List Transition} (hdriven : Driven (start.load program) history machine) :
    (∀ transition ∈ history, transition.carriesOut [.push, .call] = true →
      transition.PutsBehind program) ∧
    (∀ address : UInt8, address.toNat < program.length →
      program.bytes[address.toNat]? ≠ some (machine.memory.cell address) →
      ∃ transition ∈ history, transition.StoresAt address) ∧
    (255 ≤ program.length → ∀ instruction ∈ [Instruction.push, .call],
      machine.instruction? = some instruction → ∀ sink, (machine.step sink).result ≠ .ok ()) := by
  have hintact := Intact.of_driven hdriven
  refine ⟨hintact.puts, ?_, ?_⟩
  · intro address hbelow hchanged
    by_cases hstored : ∃ transition ∈ history, transition.StoresAt address
    · exact hstored
    · refine absurd (hintact.bytes address ?_ hbelow) hchanged
      intro transition hmem hstores
      exact hstored ⟨transition, hmem, hstores⟩
  · intro hlong instruction hput hfound sink hok
    -- One more step would be one more that puts its byte behind the program.
    have hputs := (Intact.of_driven (hdriven.step (step_eq_of_ok hok))).puts
    obtain ⟨-, hlast⟩ := List.forall_mem_append.mp hputs
    rw [List.forall_mem_singleton] at hlast
    have hcarries : Transition.carriesOut [.push, .call]
        ⟨machine, (machine.step sink).machine⟩ = true := by
      simpa only [Transition.carriesOut, hfound, List.contains_iff_mem] using hput
    obtain ⟨_, -, -, hstart, hend⟩ := hlast hcarries
    omega

/-- With the stack pointer right behind a program of two bytes and one byte of room, a PUSH
    stores at address 2, and not on the program. -/
theorem stack_spares_program_push :
    let program : Program := ⟨[0x45, 7], by decide⟩
    let loaded := initial.load program
    let moved : Machine := { loaded with registers := loaded.registers.setStackPointer 3 }
    let pushed := (moved.step .unlimited).machine
    Driven loaded [⟨moved, pushed⟩] pushed ∧
      pushed.stackPointer.toNat = 2 ∧
      ∀ address : UInt8, address.toNat < 2 →
        program.bytes[address.toNat]? = some (pushed.memory.cell address) := by
  intro program loaded moved pushed
  have hpush : moved.step .unlimited = ⟨pushed, (moved.step .unlimited).sink, .ok ()⟩ :=
    step_of_room_none rfl (by decide +kernel)
  have hmoved : Driven loaded [] moved := Driven.refl.adjust rfl rfl
  have hdriven : Driven loaded [⟨moved, pushed⟩] pushed := hmoved.step hpush
  obtain ⟨hputs, hbytes, -⟩ := stack_spares_program hdriven
  have hcarries : Transition.carriesOut [.push, .call] ⟨moved, pushed⟩ = true := by
    decide +kernel
  have hthree : moved.stackPointer.toNat = 3 := by decide +kernel
  obtain ⟨_, -, hpointer, -, -⟩ := hputs _ (List.mem_singleton_self _) hcarries
  simp only [hthree] at hpointer
  refine ⟨hdriven, by omega, ?_⟩
  intro address hbelow
  by_cases hkept : program.bytes[address.toNat]? = some (pushed.memory.cell address)
  · exact hkept
  · -- The only step was no ST.
    obtain ⟨transition, hmem, hstores, -⟩ := hbytes address hbelow hkept
    obtain rfl := List.mem_singleton.mp hmem
    have hother : Transition.carriesOut [.st] ⟨moved, pushed⟩ = false := by decide +kernel
    exact absurd hstores (Bool.eq_false_iff.mp hother)

end Machine

end ByteMachine
