import ByteMachine.Proofs.Disassembly
import ByteMachine.Proofs.Limits
/-!
# Code without transfers of control

Only calls, returns and jumps lead the machine back. Every other instruction that a running
machine carries out leads it behind itself, but for HLT, after which there is no next step. An
instruction is carried out only with all its bytes in memory, so the way up to the end of
memory is all there is to go. What the bytes are, and whether the code has stored them itself
a moment ago, does not matter: each step is made by what it finds.

## Main statements

- `pc_lt_of_step`: a straight step leads upwards, and not beyond the end of memory.
- `pc_of_steps`: so do all steps of a history, one after the other.
- `straight_code_ends`: histories of straight steps are short, and runs of them return.
-/

namespace ByteMachine

/-- The step neither transferred control nor halted the machine. -/
def Transition.Straight (transition : Transition) : Prop :=
  ∀ instruction, transition.before.instruction? = some instruction →
    instruction.category ≠ .control ∧ instruction ≠ .hlt

theorem Transition.Straight.of_found {before after : Machine} {instruction : Instruction}
    (hfound : before.instruction? = some instruction)
    (hcontrol : instruction.category ≠ .control) (hhlt : instruction ≠ .hlt) :
    Transition.Straight ⟨before, after⟩ := by
  intro other hother
  obtain rfl : other = instruction := Option.some.inj (hother.symm.trans hfound)
  exact ⟨hcontrol, hhlt⟩

/-- The addresses that a history goes through on its way to a machine. -/
def addressesTo (later : Machine) (history : List Transition) : List Nat :=
  history.map (·.before.pc.toNat) ++ [later.pc.toNat]

namespace Machine

variable {machine next later : Machine} {sink out rest : Sink} {history : List Transition}

/-! ## Straight steps -/

/-- A straight step leads upwards, at most to the first address behind memory. -/
theorem pc_lt_of_step (hrunning : machine.running = true)
    (hstep : machine.step sink = ⟨next, out, .ok ()⟩)
    (hstraight : Transition.Straight ⟨machine, next⟩) :
    machine.pc.toNat < next.pc.toNat ∧ next.pc.toNat ≤ Memory.capacity := by
  obtain ⟨instruction, hexecutes, -⟩ := exists_executes_of_step hstep
  obtain ⟨hcontrol, hhlt⟩ := hstraight instruction hexecutes.found
  obtain ⟨-, hpc⟩ := pc_of_straight_step hrunning hexecutes.found hcontrol hhlt hstep
  have hwidth : (machine.operation instruction).width = 1 + instruction.operandCount := rfl
  -- The last operand byte is in memory, so what comes behind it is at most the end of memory.
  have hfits := hexecutes.fits
  unfold Memory.capacity
  omega

/-- Each straight step of a history leads further up, so there is room for only so many. -/
theorem pc_of_steps (hsteps : Steps machine sink history later rest)
    (hstraight : ∀ transition ∈ history,
      transition.before.running = true ∧ transition.Straight) :
    machine.pc.toNat + history.length ≤ later.pc.toNat ∧
    (history = [] ∨ later.pc.toNat ≤ Memory.capacity) ∧
    (addressesTo later history).Pairwise (· < ·) := by
  -- The induction is on the history; its last step starts where the earlier ones have led to.
  induction hsteps with
  | refl => exact ⟨Nat.le_refl _, .inl rfl, List.pairwise_singleton _ _⟩
  | @snoc earlier last next between out _ hstep ih =>
    obtain ⟨hearlier, hlast⟩ := List.forall_mem_append.mp hstraight
    rw [List.forall_mem_singleton] at hlast
    obtain ⟨hlength, -, hupwards⟩ := ih hearlier
    obtain ⟨hlt, hle⟩ : last.pc.toNat < next.pc.toNat ∧ next.pc.toNat ≤ Memory.capacity :=
      pc_lt_of_step hlast.1 hstep hlast.2
    refine ⟨?_, .inr hle, ?_⟩
    · rw [List.length_append, List.length_singleton]
      omega
    · -- All addresses before the last one are below it.
      have hbelow : ∀ address ∈ addressesTo last earlier, address ≤ last.pc.toNat := by
        intro address hmem
        rcases List.mem_append.mp hmem with hbefore | hhere
        · obtain ⟨-, -, hcross⟩ := List.pairwise_append.mp hupwards
          exact Nat.le_of_lt (hcross address hbefore _ (List.mem_singleton_self _))
        · exact Nat.le_of_eq (List.mem_singleton.mp hhere)
      have hsplit : addressesTo next (earlier ++ [⟨last, next⟩]) =
          addressesTo last earlier ++ [next.pc.toNat] := by
        simp only [addressesTo, List.map_append, List.map_cons, List.map_nil]
      rw [hsplit]
      refine List.pairwise_append.mpr ⟨hupwards, List.pairwise_singleton _ _, ?_⟩
      intro address hmem behind hbehind
      rw [List.mem_singleton.mp hbehind]
      exact Nat.lt_of_le_of_lt (hbelow address hmem) hlt

/-! ## Straight runs -/

/-- No step that the run of the machine makes transfers control. -/
def NeverTransfers (machine : Machine) (sink : Sink) : Prop :=
  ∀ history later rest, Steps machine sink history later rest →
    (∀ transition ∈ history, transition.before.running = true) →
    ∀ transition ∈ history, ∀ instruction,
      transition.before.instruction? = some instruction → instruction.category ≠ .control

/-- What is left of such a run after its first step is such a run. -/
theorem NeverTransfers.tail (h : NeverTransfers machine sink) (hrunning : machine.running = true)
    (hstep : machine.step sink = ⟨next, out, .ok ()⟩) : NeverTransfers next out := by
  intro history later rest hsteps hbefore transition hmem
  exact h _ later rest (hsteps.cons hstep) (List.forall_mem_cons.mpr ⟨hrunning, hbefore⟩)
    transition (List.mem_cons_of_mem _ hmem)

/-- The first step of such a run does not transfer control. -/
theorem NeverTransfers.head (h : NeverTransfers machine sink) (hrunning : machine.running = true)
    (hstep : machine.step sink = ⟨next, out, .ok ()⟩) {instruction : Instruction}
    (hfound : machine.instruction? = some instruction) : instruction.category ≠ .control := by
  have hbefore : ∀ transition ∈ [(⟨machine, next⟩ : Transition)],
      transition.before.running = true := List.forall_mem_singleton.mpr hrunning
  exact h _ next out (Steps.refl.cons hstep) hbefore ⟨machine, next⟩ (List.mem_singleton_self _)
    instruction hfound

/-- Without a step there is no transfer of control. -/
theorem NeverTransfers.of_not_running (h : machine.running = false) :
    NeverTransfers machine sink := by
  intro history later rest hsteps hbefore
  rcases hsteps.eq_nil_or_cons with rfl | ⟨next, out, tail, rfl, -, -⟩
  · simp
  · have hrunning := hbefore _ (List.mem_cons_self ..)
    rw [h] at hrunning
    cases hrunning

/-- A step without a transfer of control may come first. -/
theorem NeverTransfers.cons {instruction : Instruction}
    (hfound : machine.instruction? = some instruction) (hcontrol : instruction.category ≠ .control)
    (hstep : machine.step sink = ⟨next, out, .ok ()⟩) (h : NeverTransfers next out) :
    NeverTransfers machine sink := by
  intro history later rest hsteps hbefore
  rcases hsteps.eq_nil_or_cons with rfl | ⟨other, into, tail, rfl, hother, htail⟩
  · simp
  · rw [hstep] at hother
    cases hother
    obtain ⟨-, hafter⟩ := List.forall_mem_cons.mp hbefore
    refine List.forall_mem_cons.mpr ⟨?_, h tail later rest htail hafter⟩
    intro found hhere
    obtain rfl : found = instruction := Option.some.inj (hhere.symm.trans hfound)
    exact hcontrol

/-- The run of the machine makes straight steps, then at most one step that halts it, and ends
    as `ended`. -/
structure EndsStraight (machine : Machine) (sink : Sink) (straight halting : List Transition)
    (ended : Run) : Prop where
  /-- The steps of the run lead to its end. -/
  ends : ∃ later rest halt, Steps machine sink (straight ++ halting) later rest ∧
    Ends later rest ended.machine ended.sink halt ∧ ended.halt = some halt
  running : ∀ transition ∈ straight ++ halting, transition.before.running = true
  straight : ∀ transition ∈ straight, transition.Straight
  halts : ∀ transition ∈ halting, transition.carriesOut [.hlt] = true
  once : halting.length ≤ 1

/-- A machine that does not run has ended. -/
theorem EndsStraight.of_not_running (h : machine.running = false) :
    EndsStraight machine sink [] [] ⟨machine, sink, some .halted⟩ where
  ends := ⟨machine, sink, .halted, .refl, .halted h, rfl⟩
  running := by simp
  straight := by simp
  halts := by simp
  once := Nat.zero_le 1

/-- A step that fails is the end. -/
theorem EndsStraight.of_error {fault : Fault} (hrunning : machine.running = true)
    (hstep : machine.step sink = ⟨next, out, .error fault⟩) :
    EndsStraight machine sink [] [] (next.stop out fault) where
  ends := by
    obtain ⟨halt, hhalt⟩ := exists_halt_stop next out fault
    refine ⟨machine, sink, halt, .refl, ends_of_step_error hrunning hstep ?_, hhalt⟩
    rw [← hhalt]
  running := by simp
  straight := by simp
  halts := by simp
  once := Nat.zero_le 1

/-- HLT is the last step. -/
theorem EndsStraight.of_hlt (hrunning : machine.running = true)
    (hstep : machine.step sink = ⟨next, out, .ok ()⟩)
    (hfound : machine.instruction? = some .hlt) (hstill : next.running = false) :
    EndsStraight machine sink [] [⟨machine, next⟩] ⟨next, out, some .halted⟩ where
  ends := ⟨next, out, .halted, Steps.refl.cons hstep, .halted hstill, rfl⟩
  running := List.forall_mem_singleton.mpr hrunning
  straight := by simp
  halts := List.forall_mem_singleton.mpr (by simp [Transition.carriesOut, hfound])
  once := Nat.le_refl 1

/-- A straight step may come first. -/
theorem EndsStraight.cons {straight halting : List Transition} {ended : Run}
    (h : EndsStraight next out straight halting ended) (hrunning : machine.running = true)
    (hstep : machine.step sink = ⟨next, out, .ok ()⟩)
    (hstraight : Transition.Straight ⟨machine, next⟩) :
    EndsStraight machine sink (⟨machine, next⟩ :: straight) halting ended where
  ends := by
    obtain ⟨later, rest, halt, hsteps, hends⟩ := h.ends
    exact ⟨later, rest, halt, hsteps.cons hstep, hends⟩
  running := List.forall_mem_cons.mpr ⟨hrunning, h.running⟩
  straight := List.forall_mem_cons.mpr ⟨hstraight, h.straight⟩
  halts := h.halts
  once := h.once

/-- A run without transfers of control ends, with no more straight steps than there are cells
    from the program counter on. -/
theorem exists_endsStraight (h : NeverTransfers machine sink) :
    ∃ straight halting ended, EndsStraight machine sink straight halting ended ∧
      straight.length ≤ Memory.capacity - machine.pc.toNat := by
  -- The induction is on the room above the program counter, of which each step takes some.
  generalize hroom : Memory.capacity - machine.pc.toNat = room
  induction room using Nat.strong_induction_on generalizing machine sink with
  | _ room ih =>
    cases hrunning : machine.running with
    | false => exact ⟨[], [], _, .of_not_running hrunning, Nat.zero_le _⟩
    | true =>
      rcases hstep : machine.step sink with ⟨next, out, fault | ⟨⟩⟩
      · exact ⟨[], [], _, .of_error hrunning hstep, Nat.zero_le _⟩
      obtain ⟨instruction, hexecutes, -, -, hnext⟩ := exists_executes_of_step hstep
      by_cases hhlt : instruction = .hlt
      · subst hhlt
        have hstill : next.running = false := by rw [hnext]; rfl
        exact ⟨[], _, _, .of_hlt hrunning hstep hexecutes.found hstill, Nat.zero_le _⟩
      · have hstraight : Transition.Straight ⟨machine, next⟩ :=
          .of_found hexecutes.found (h.head hrunning hstep hexecutes.found) hhlt
        obtain ⟨hlt, hle⟩ := pc_lt_of_step hrunning hstep hstraight
        obtain ⟨straight, halting, ended, hends, hlength⟩ :=
          ih (Memory.capacity - next.pc.toNat) (by omega) (h.tail hrunning hstep) rfl
        refine ⟨_, halting, ended, hends.cons hrunning hstep hstraight, ?_⟩
        rw [List.length_cons]
        omega

/-- The run without a limit returns what a straight run ends as. -/
theorem EndsStraight.run_eq {straight halting : List Transition} {ended : Run}
    (h : EndsStraight machine sink straight halting ended) :
    machine.run sink = Part.some ended := by
  obtain ⟨later, rest, halt, hsteps, hends, hhalt⟩ := h.ends
  obtain ⟨limit, hlimit⟩ := returns_iff.mpr ⟨_, later, rest, hsteps, h.running, hends⟩
  have hrun := run_of_halt (show (machine.runFor limit sink).halt = some halt by rw [hlimit])
  rw [hrun, hlimit, ← hhalt]

/-- **Code without transfers of control ends.** Successful steps of running machines, none of
    which is a transfer of control or HLT, are at most as many as there are cells from the
    program counter on, and each of them starts at a higher address than the one before it. So
    a run that never transfers control returns: it makes at most that many steps, besides one
    HLT, and then it has been halted or its next step fails. -/
theorem straight_code_ends (machine : Machine) (sink : Sink) :
    (∀ history later rest, Steps machine sink history later rest →
      (∀ transition ∈ history, transition.before.running = true ∧ transition.Straight) →
      history.length ≤ Memory.capacity - machine.pc.toNat ∧
      (addressesTo later history).Pairwise (· < ·)) ∧
    (NeverTransfers machine sink →
      ∃ straight halting ended,
        EndsStraight machine sink straight halting ended ∧
        straight.length ≤ Memory.capacity - machine.pc.toNat ∧
        machine.run sink = Part.some ended) := by
  constructor
  · intro history later rest hsteps hstraight
    obtain ⟨hlength, hroom, hupwards⟩ := pc_of_steps hsteps hstraight
    refine ⟨?_, hupwards⟩
    rcases hroom with rfl | hle
    · exact Nat.zero_le _
    · omega
  · intro hnever
    obtain ⟨straight, halting, ended, hends, hlength⟩ := exists_endsStraight hnever
    exact ⟨straight, halting, ended, hends, hlength, hends.run_eq⟩

/-- A program that puts HLT in the place of the jump that it ends with, before it gets there. -/
theorem straight_code_ends_overwritten_jump :
    let start := ofProgram ⟨[0x82, 0, 9, 0x82, 1, 0x01, 0x84, 0, 1, 0x54, 0], by decide⟩
    let first := (start.step .unlimited).machine
    let second := (first.step .unlimited).machine
    let third := (second.step .unlimited).machine
    let history : List Transition := [⟨start, first⟩, ⟨first, second⟩, ⟨second, third⟩]
    (Steps start .unlimited history third .unlimited ∧
      ∀ transition ∈ history, transition.before.running = true ∧ transition.Straight) ∧
    (history.length ≤ Memory.capacity - start.pc.toNat ∧
      (addressesTo third history).Pairwise (· < ·)) ∧
    NeverTransfers start .unlimited ∧
    ∃ straight halting ended,
      EndsStraight start .unlimited straight halting ended ∧
      straight.length ≤ Memory.capacity - start.pc.toNat ∧
      start.run .unlimited = Part.some ended := by
  intro start first second third history
  obtain ⟨hhistories, hruns⟩ := straight_code_ends start .unlimited
  have hfirst : start.step .unlimited = ⟨first, .unlimited, .ok ()⟩ :=
    step_of_clear (by decide +kernel) (by decide +kernel)
  have hsecond : first.step .unlimited = ⟨second, .unlimited, .ok ()⟩ :=
    step_of_clear (by decide +kernel) (by decide +kernel)
  have hthird : second.step .unlimited = ⟨third, .unlimited, .ok ()⟩ :=
    step_of_clear (by decide +kernel) (by decide +kernel)
  have hlast : third.step .unlimited =
      ⟨(third.step .unlimited).machine, .unlimited, .ok ()⟩ :=
    step_of_clear (by decide +kernel) (by decide +kernel)
  have hload : start.instruction? = some .ldi := by decide +kernel
  have hother : first.instruction? = some .ldi := by decide +kernel
  have hstore : second.instruction? = some .st := by decide +kernel
  have hhlt : third.instruction? = some .hlt := by decide +kernel
  have hsteps : Steps start .unlimited history third .unlimited :=
    ((Steps.refl.cons hthird).cons hsecond).cons hfirst
  have hstraight : ∀ transition ∈ history,
      transition.before.running = true ∧ transition.Straight := by
    have hloads : Transition.Straight ⟨start, first⟩ :=
      .of_found hload (by decide) (by decide)
    have hloadsOther : Transition.Straight ⟨first, second⟩ :=
      .of_found hother (by decide) (by decide)
    have hstores : Transition.Straight ⟨second, third⟩ :=
      .of_found hstore (by decide) (by decide)
    exact List.forall_mem_cons.mpr ⟨⟨by decide +kernel, hloads⟩,
      List.forall_mem_cons.mpr ⟨⟨by decide +kernel, hloadsOther⟩,
        List.forall_mem_singleton.mpr ⟨by decide +kernel, hstores⟩⟩⟩
  have hnever : NeverTransfers start .unlimited :=
    .cons hload (by decide) hfirst <| .cons hother (by decide) hsecond <|
      .cons hstore (by decide) hthird <| .cons hhlt (by decide) hlast <|
        .of_not_running (by decide +kernel)
  exact ⟨⟨hsteps, hstraight⟩, hhistories _ _ _ hsteps hstraight, hnever, hruns hnever⟩

end Machine

end ByteMachine
