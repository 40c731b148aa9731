import ByteMachine.Proofs.Halts
import ByteMachine.Proofs.Variants
/-!
# Runs that repeat themselves

What a machine does from some point on depends on its memory, registers, flags and program
counter, and not on the opcode that it has fetched last or on the number of its steps. So a
machine that comes back to a configuration, and still runs, comes back to it again and again:
its run goes through the same period for ever and prints the same text in each of them.

## Main statements

- `Reaches.replay`: steps are the same from every machine with the same configuration.
- `repetition_never_ends`: a run that comes back to a configuration never ends.
-/

namespace ByteMachine.Machine

/-! ## Numbers of steps -/

/-- `Reaches machine sink count later rest` says that `count` successful steps lead from
    `machine` and `sink` to `later` and `rest`. -/
def Reaches (machine : Machine) (sink : Sink) (count : Nat) (later : Machine) (rest : Sink) :
    Prop :=
  ∃ history, Steps machine sink history later rest ∧ history.length = count

variable {machine next later entry again : Machine} {sink out rest between into : Sink}
  {count first second : Nat}

theorem reaches_zero_iff : Reaches machine sink 0 later rest ↔ later = machine ∧ rest = sink := by
  constructor
  · rintro ⟨history, hsteps, hlength⟩
    cases hsteps with
    | refl => exact ⟨rfl, rfl⟩
    | snoc => simp at hlength
  · rintro ⟨rfl, rfl⟩
    exact ⟨[], .refl, rfl⟩

theorem reaches_succ_iff :
    Reaches machine sink (count + 1) later rest ↔
      ∃ middle between, Reaches machine sink count middle between ∧
        middle.step between = ⟨later, rest, .ok ()⟩ := by
  constructor
  · rintro ⟨history, hsteps, hlength⟩
    cases hsteps with
    | refl => cases hlength
    | snoc hsteps hstep =>
      rw [List.length_append, List.length_singleton, Nat.add_right_cancel_iff] at hlength
      exact ⟨_, _, ⟨_, hsteps, hlength⟩, hstep⟩
  · rintro ⟨middle, between, ⟨history, hsteps, hlength⟩, hstep⟩
    exact ⟨_, hsteps.snoc hstep, by rw [List.length_append, List.length_singleton, hlength]⟩

/-- Some steps and then some more. -/
theorem reaches_add_iff :
    Reaches machine sink (first + second) later rest ↔
      ∃ middle between, Reaches machine sink first middle between ∧
        Reaches middle between second later rest := by
  induction second generalizing later rest with
  | zero => simp [reaches_zero_iff]
  | succ second ih =>
    rw [← Nat.add_assoc, reaches_succ_iff]
    constructor
    · rintro ⟨last, before, hreaches, hstep⟩
      obtain ⟨middle, between, hfirst, hsecond⟩ := ih.mp hreaches
      exact ⟨middle, between, hfirst, reaches_succ_iff.mpr ⟨last, before, hsecond, hstep⟩⟩
    · rintro ⟨middle, between, hfirst, hsecond⟩
      obtain ⟨last, before, hbefore, hstep⟩ := reaches_succ_iff.mp hsecond
      exact ⟨last, before, ih.mpr ⟨middle, between, hfirst, hbefore⟩, hstep⟩

/-- A number of steps leads to one machine only. -/
theorem Reaches.functional (hlater : Reaches machine sink count later rest)
    (hentry : Reaches machine sink count entry between) : entry = later ∧ between = rest := by
  induction count generalizing later rest entry between with
  | zero =>
    obtain ⟨rfl, rfl⟩ := reaches_zero_iff.mp hlater
    exact reaches_zero_iff.mp hentry
  | succ count ih =>
    obtain ⟨_, _, hbefore, hstep⟩ := reaches_succ_iff.mp hlater
    obtain ⟨_, _, hother, hotherStep⟩ := reaches_succ_iff.mp hentry
    obtain ⟨rfl, rfl⟩ := ih hbefore hother
    rw [hstep] at hotherStep
    cases hotherStep
    exact ⟨rfl, rfl⟩

/-! ## What steps keep -/

theorem stackLimit_of_reaches (h : Reaches machine sink count later rest) :
    later.stackLimit = machine.stackLimit := by
  induction count generalizing later rest with
  | zero =>
    obtain ⟨rfl, -⟩ := reaches_zero_iff.mp h
    rfl
  | succ count ih =>
    obtain ⟨middle, between, hbefore, hstep⟩ := reaches_succ_iff.mp h
    obtain ⟨-, -, -, -, hlimit⟩ := memory_of_step hstep
    exact hlimit.trans (ih hbefore)

/-- No step makes a machine run that does not. -/
theorem running_of_step (h : machine.step sink = ⟨next, out, .ok ()⟩)
    (hrunning : next.running = true) : machine.running = true := by
  obtain ⟨instruction, -, -, -, rfl⟩ := exists_executes_of_step h
  by_cases hhlt : instruction = .hlt
  · subst hhlt
    cases hrunning
  · rw [← machine.runningAfter_of_ne_hlt hhlt]
    exact hrunning

/-- A machine that runs has been running before each of its steps. -/
theorem running_of_steps {history : List Transition}
    (hsteps : Steps machine sink history later rest) (hrunning : later.running = true) :
    machine.running = true ∧ ∀ transition ∈ history, transition.before.running = true := by
  induction hsteps with
  | refl => exact ⟨hrunning, by simp⟩
  | snoc _ hstep ih =>
    have hbefore := running_of_step hstep hrunning
    obtain ⟨hstart, hhistory⟩ := ih hbefore
    exact ⟨hstart, List.forall_mem_append.mpr ⟨hhistory, List.forall_mem_singleton.mpr hbefore⟩⟩

/-- A run with as many steps as a limit allows, and none of them a HLT, has not ended. -/
theorem halt_runFor_of_reaches (h : Reaches machine sink count later rest)
    (hrunning : later.running = true) : (machine.runFor count sink).halt = none := by
  obtain ⟨history, hsteps, rfl⟩ := h
  have hrun := runFor_of_steps hsteps (running_of_steps hsteps hrunning).2 0
  rw [Nat.add_zero] at hrun
  rw [hrun]
  simp only [runFor, hrunning, if_true]

/-! ## Configurations -/

/-- The machines agree in what decides about the steps to come. -/
structure SameConfiguration (machine other : Machine) : Prop where
  memory : other.memory = machine.memory
  registers : other.registers = machine.registers
  flags : other.flags = machine.flags
  pc : other.pc = machine.pc

theorem SameConfiguration.variant (machine : Machine) (ir : UInt8) (cycles : UInt64) :
    SameConfiguration machine (machine.variant machine.memory ir cycles) :=
  ⟨rfl, rfl, rfl, rfl⟩

theorem SameConfiguration.eq_variant {other : Machine} (h : SameConfiguration machine other)
    (hlimit : other.stackLimit = machine.stackLimit) (hrunning : other.running = machine.running) :
    other = machine.variant machine.memory other.ir other.cycles := by
  obtain ⟨memory, registers, flags, pc, ir, stackLimit, running, cycles⟩ := other
  obtain ⟨rfl, rfl, rfl, rfl⟩ := h
  cases hlimit
  cases hrunning
  rfl

/-- **Steps are the same from every machine with the same configuration**, into any sink
    without a limit: they lead to the same configuration and print the same text. -/
theorem Reaches.replay (h : Reaches machine sink count later rest) :
    ∃ text, rest = sink.offer text ∧
      ∀ into ir cycles, into.room = none →
        ∃ irAfter cyclesAfter,
          Reaches (machine.variant machine.memory ir cycles) into count
            (later.variant later.memory irAfter cyclesAfter) (into.offer text) := by
  induction count generalizing later rest with
  | zero =>
    obtain ⟨rfl, rfl⟩ := reaches_zero_iff.mp h
    refine ⟨"", rest.offer_empty.symm, ?_⟩
    intro into ir cycles _
    exact ⟨ir, cycles, reaches_zero_iff.mpr ⟨rfl, into.offer_empty⟩⟩
  | succ count ih =>
    obtain ⟨middle, between, hbefore, hstep⟩ := reaches_succ_iff.mp h
    obtain ⟨text, rfl, hagain⟩ := ih hbefore
    obtain ⟨-, rfl⟩ := sink_of_step hstep
    refine ⟨text ++ Transition.output ⟨middle, later⟩, Sink.offer_append _ _ _, ?_⟩
    intro into ir cycles hfree
    obtain ⟨irBefore, cyclesBefore, hreaches⟩ := hagain into ir cycles hfree
    have hadmits := Sink.admits_of_room_none (Sink.room_offer_of_room_none hfree text)
      (Transition.output ⟨middle, later⟩)
    obtain ⟨memory, hlast, -, hcells⟩ :=
      step_variant hstep (fun _ _ => rfl) hadmits irBefore cyclesBefore
    -- The memories were the same before the step, so they are after it.
    obtain rfl : memory = later.memory := Memory.ext_cell fun address => hcells address (.inl rfl)
    rw [Sink.offer_append] at hlast
    exact ⟨_, _, reaches_succ_iff.mpr ⟨_, _, hreaches, hlast⟩⟩

/-! ## Periods -/

section Period

variable {period : Nat}

/-- A machine that comes back to the configuration that it had, and has been running, is a
    variant of the machine that it was. -/
theorem again_eq_variant (hperiod : Reaches entry between period again out)
    (hrunning : again.running = true) (hsame : SameConfiguration entry again) :
    again = entry.variant entry.memory again.ir again.cycles := by
  obtain ⟨history, hsteps, -⟩ := hperiod
  have hentry := (running_of_steps hsteps hrunning).1
  exact hsame.eq_variant (stackLimit_of_reaches ⟨history, hsteps, rfl⟩)
    (hrunning.trans hentry.symm)

/-- One period leads back to the configuration, and so do any number of them. -/
theorem exists_variant_of_periods (hfree : between.room = none)
    (hperiod : Reaches entry between period again out) (hrunning : again.running = true)
    (hsame : SameConfiguration entry again) (count : Nat) :
    ∃ ir cycles rest, rest.room = none ∧
      Reaches entry between (count * period) (entry.variant entry.memory ir cycles) rest := by
  obtain ⟨text, -, hagain⟩ := hperiod.replay
  have hvariant := again_eq_variant hperiod hrunning hsame
  induction count with
  | zero =>
    rw [Nat.zero_mul]
    exact ⟨entry.ir, entry.cycles, between, hfree, reaches_zero_iff.mpr ⟨rfl, rfl⟩⟩
  | succ count ih =>
    obtain ⟨ir, cycles, rest, hroom, hreaches⟩ := ih
    obtain ⟨irAfter, cyclesAfter, hlast⟩ := hagain rest ir cycles hroom
    rw [hvariant] at hlast
    rw [Nat.succ_mul]
    exact ⟨irAfter, cyclesAfter, _, Sink.room_offer_of_room_none hroom text,
      reaches_add_iff.mpr ⟨_, _, hreaches, hlast⟩⟩

end Period

/-- A sink without a limit has none after any steps. -/
theorem room_of_reaches (h : Reaches machine sink count later rest) (hfree : sink.room = none) :
    rest.room = none := by
  obtain ⟨text, rfl, -⟩ := h.replay
  exact Sink.room_offer_of_room_none hfree text

/-- **A run that comes back to a configuration never ends.** Into a sink without a limit, let
    the machine have the same memory, registers, flags and program counter after `i` and after
    `j` successful steps, `j` being the later one, and let it still be running then. Then there
    is always another step, it succeeds and the machine is running after it. No run with a
    limit ends within it, and so the run does not return. After `i` steps, any number of whole
    periods of `j - i` steps makes no difference to the configuration `r` steps later, and what
    is printed in the first of these periods is printed in each of them. -/
theorem repetition_never_ends {i j : Nat} (hfree : sink.room = none) (hlt : i < j)
    (hentry : Reaches machine sink i entry between) (hagain : Reaches machine sink j again out)
    (hrunning : again.running = true) (hsame : SameConfiguration entry again) :
    (∀ count, ∃ later rest, Reaches machine sink count later rest ∧ later.running = true) ∧
    (∀ limit, (machine.runFor limit sink).halt = none) ∧
    (∀ final last halt, ¬ Returns machine sink final last halt) ∧
    (∀ q r later rest far beyond, Reaches machine sink (i + r) later rest →
      Reaches machine sink (i + q * (j - i) + r) far beyond → SameConfiguration later far) ∧
    ∃ text, out.written = between.written ++ text ∧
      ∀ q later rest far beyond, Reaches machine sink (i + q * (j - i)) later rest →
        Reaches machine sink (i + (q + 1) * (j - i)) far beyond →
        beyond.written = rest.written ++ text := by
  obtain ⟨period, rfl⟩ : ∃ period, j = i + period := ⟨j - i, by omega⟩
  rw [Nat.add_sub_cancel_left]
  have hroom := room_of_reaches hentry hfree
  -- The steps from `i` to `j` are one period.
  have hperiod : Reaches entry between period again out := by
    obtain ⟨middle, partway, hfirst, hsecond⟩ := reaches_add_iff.mp hagain
    obtain ⟨rfl, rfl⟩ := hfirst.functional hentry
    exact hsecond
  have hperiods := exists_variant_of_periods hroom hperiod hrunning hsame
  have hforever (count : Nat) :
      ∃ later rest, Reaches machine sink count later rest ∧ later.running = true := by
    -- As many periods as there should be steps are enough.
    obtain ⟨ir, cycles, far, -, hmany⟩ := hperiods count
    have hall := reaches_add_iff.mpr ⟨_, _, hentry, hmany⟩
    have hlong : count ≤ i + count * period :=
      Nat.le_add_left_of_le (Nat.le_mul_of_pos_right count (by omega))
    obtain ⟨more, hmore⟩ := Nat.exists_eq_add_of_le hlong
    rw [hmore] at hall
    obtain ⟨later, rest, hlater, history, hsteps, -⟩ := reaches_add_iff.mp hall
    obtain ⟨earlier, hearlier, -⟩ := hperiod
    have hback : (entry.variant entry.memory ir cycles).running = true :=
      (running_of_steps hearlier hrunning).1
    exact ⟨later, rest, hlater, (running_of_steps hsteps hback).1⟩
  have hnever (limit : Nat) : (machine.runFor limit sink).halt = none := by
    obtain ⟨later, rest, hlater, hlaterRunning⟩ := hforever limit
    exact halt_runFor_of_reaches hlater hlaterRunning
  refine ⟨hforever, hnever, ?_, ?_, ?_⟩
  · rintro final last halt ⟨limit, hrun⟩
    have hnone := hnever limit
    rw [hrun] at hnone
    cases hnone
  · intro q r later rest far beyond hlater hfar
    obtain ⟨_, _, hfirst, hafter⟩ := reaches_add_iff.mp hlater
    obtain ⟨rfl, rfl⟩ := hfirst.functional hentry
    obtain ⟨ir, cycles, partway, hpartway, hmany⟩ := hperiods q
    obtain ⟨text, -, hreplay⟩ := hafter.replay
    obtain ⟨irAfter, cyclesAfter, hsecond⟩ := hreplay partway ir cycles hpartway
    have hthere := reaches_add_iff.mpr
      ⟨_, _, reaches_add_iff.mpr ⟨_, _, hentry, hmany⟩, hsecond⟩
    obtain ⟨rfl, -⟩ := hthere.functional hfar
    exact .variant later irAfter cyclesAfter
  · obtain ⟨text, rfl, hreplay⟩ := hperiod.replay
    refine ⟨text, Sink.written_offer_of_room_none hroom text, ?_⟩
    intro q later rest far beyond hlater hfar
    obtain ⟨ir, cycles, partway, hpartway, hmany⟩ := hperiods q
    obtain ⟨irAfter, cyclesAfter, hsecond⟩ := hreplay partway ir cycles hpartway
    have hthere := reaches_add_iff.mpr ⟨_, _, hentry, hmany⟩
    obtain ⟨rfl, rfl⟩ := hthere.functional hlater
    rw [Nat.succ_mul, ← Nat.add_assoc] at hfar
    obtain ⟨-, rfl⟩ := (reaches_add_iff.mpr ⟨_, _, hthere, hsecond⟩).functional hfar
    exact Sink.written_offer_of_room_none hpartway text

/-- PRN and a jump back to it. The machine has not been where it comes back to: it has fetched
    an opcode since. -/
theorem repetition_never_ends_print_loop :
    let start := ofProgram ⟨[0x47, 0, 0x54, 0], by decide⟩
    let printed := (start.step .unlimited).machine
    let back := (printed.step (start.step .unlimited).sink).machine
    let out := (printed.step (start.step .unlimited).sink).sink
    (Reaches start .unlimited 0 start .unlimited ∧ Reaches start .unlimited 2 back out ∧
      back.running = true ∧ SameConfiguration start back ∧ back.cycles ≠ start.cycles ∧
      out.written = "0\n") ∧
    (∀ final last halt, ¬ Returns start .unlimited final last halt) ∧
    ∀ q later rest far beyond, Reaches start .unlimited (0 + q * 2) later rest →
      Reaches start .unlimited (0 + (q + 1) * 2) far beyond →
      beyond.written = rest.written ++ "0\n" := by
  intro start printed back out
  have hprint : start.step .unlimited = ⟨printed, (start.step .unlimited).sink, .ok ()⟩ :=
    step_of_room_none rfl (by decide +kernel)
  have hjump : printed.step (start.step .unlimited).sink = ⟨back, out, .ok ()⟩ :=
    step_of_room_none (by decide +kernel) (by decide +kernel)
  have hstart : Reaches start .unlimited 0 start .unlimited := reaches_zero_iff.mpr ⟨rfl, rfl⟩
  have hback : Reaches start .unlimited 2 back out :=
    ⟨_, (Steps.refl.snoc hprint).snoc hjump, rfl⟩
  have hmemory : back.memory = start.memory := by
    -- Neither instruction stores anything.
    obtain ⟨first, hfirst, hkeptFirst, -, -⟩ := memory_of_step hprint
    obtain ⟨second, hsecond, hkeptSecond, -, -⟩ := memory_of_step hjump
    obtain rfl : first = .prn := Option.some.inj (hfirst.found.symm.trans (by decide +kernel))
    obtain rfl : second = .jmp := Option.some.inj (hsecond.found.symm.trans (by decide +kernel))
    exact hkeptSecond.trans hkeptFirst
  have hsame : SameConfiguration start back :=
    ⟨hmemory, by decide +kernel, by decide +kernel, by decide +kernel⟩
  have hcycles : back.cycles ≠ start.cycles := by decide +kernel
  have hrunning : back.running = true := by decide +kernel
  have hwritten : out.written = "0\n" := by decide +kernel
  obtain ⟨-, -, hnever, -, text, htext, hperiods⟩ :=
    repetition_never_ends rfl (by decide) hstart hback hrunning hsame
  obtain rfl : text = "0\n" := by
    rw [hwritten] at htext
    exact (htext.trans String.empty_append).symm
  exact ⟨⟨hstart, hback, hrunning, hsame, hcycles, hwritten⟩, hnever, hperiods⟩

end ByteMachine.Machine
