import ByteMachine.Proofs.Offers
import ByteMachine.Proofs.Runs
/-!
# Output of histories and runs

What steps print depends on the machine, and the sink decides only how far they get. The
steps of a history lead through the same machines into any sink that has room for what
they print. Into a sink with less room they do so up to a PRN that the sink refuses, and
by then the sink has taken as much of the whole output as it has room for. The trace line
at the end of a run is one more text of this kind.

## Main statements

- `sink_of_steps`: a history prints the text `printed` and nothing else.
- `steps_into`, `exists_refused_of_steps`: the same steps with another sink.
- `limited_sink_truncates`: a sink with limited room changes nothing but how far a run gets.
-/

namespace ByteMachine

/-! ## What is printed -/

/-- The text that a step prints. -/
def Transition.output (transition : Transition) : String :=
  match transition.before.instruction? with
  | some instruction => transition.before.outputAfter instruction
  | none => ""

/-- The text that the steps of a history print. -/
def printed (history : List Transition) : String :=
  String.join (history.map Transition.output)

theorem printed_append (first second : List Transition) :
    printed (first ++ second) = printed first ++ printed second := by
  simp only [printed, List.map_append, String.join_append]

theorem printed_singleton (transition : Transition) :
    printed [transition] = transition.output := by
  simp [printed, String.join_cons]

theorem Machine.outputAfter_of_ne_prn (machine : Machine) {instruction : Instruction}
    (h : instruction ≠ .prn) : machine.outputAfter instruction = "" := by
  cases instruction
  case prn => exact absurd rfl h
  all_goals rfl

/-- A step that does not carry out PRN prints nothing. -/
theorem Transition.output_of_ne_prn {transition : Transition}
    (h : transition.before.instruction? ≠ some .prn) : transition.output = "" := by
  unfold output
  split
  · next instruction hfound =>
    apply Machine.outputAfter_of_ne_prn
    rintro rfl
    exact h hfound
  · rfl

theorem Transition.output_of_prn {transition : Transition}
    (h : transition.before.instruction? = some .prn) :
    transition.output = transition.before.registerA.toNat.repr ++ "\n" := by
  unfold output
  rw [h]
  rfl

theorem IsAscii.output (transition : Transition) : IsAscii transition.output := by
  by_cases h : transition.before.instruction? = some .prn
  · rw [Transition.output_of_prn h]
    exact (IsAscii.repr _).append (by decide +kernel)
  · rw [Transition.output_of_ne_prn h]
    decide +kernel

theorem IsAscii.printed (history : List Transition) : IsAscii (printed history) := by
  apply IsAscii.join
  intro text hmem
  obtain ⟨transition, -, rfl⟩ := List.mem_map.mp hmem
  exact IsAscii.output transition

/-- The trace of a machine that is at a cell of memory. -/
theorem IsAscii.trace {machine : Machine} (h : machine.pc.toNat < 256) :
    IsAscii machine.trace.text := by
  have hcell (cell : Option UInt8) : IsAscii (Trace.cellText cell) := by
    cases cell with
    | none => decide +kernel
    | some value => exact IsAscii.append (by decide +kernel) (IsAscii.hex value.toNat_lt)
  have hcells (cells : List (Option UInt8)) :
      IsAscii (String.join (cells.map Trace.cellText)) := by
    apply IsAscii.join
    intro text hmem
    obtain ⟨cell, -, rfl⟩ := List.mem_map.mp hmem
    exact hcell cell
  have hregisters : IsAscii (String.join
      (machine.registers.cells.toList.map fun value => Trace.cellText (some value))) := by
    have hmap := hcells (machine.registers.cells.toList.map some)
    rw [List.map_map] at hmap
    exact hmap
  have hmark : IsAscii " | " := by decide +kernel
  have hend : IsAscii " |" := by decide +kernel
  have hstart : IsAscii "TRACE: " := by decide +kernel
  exact ((((((hstart.append (IsAscii.hex h)).append hmark).append
    (IsAscii.hex machine.flags.bits.toNat_lt)).append hend).append (hcells _)).append
    hend).append hregisters

namespace Machine

variable {machine next later : Machine} {sink out rest other : Sink}
  {history : List Transition}

/-! ## The same steps with another sink -/

theorem sink_of_step (h : machine.step sink = ⟨next, out, .ok ()⟩) :
    sink.admits (Transition.output ⟨machine, next⟩) = true ∧
      out = sink.offer (Transition.output ⟨machine, next⟩) := by
  obtain ⟨instruction, hexecutes, hadmits, rfl, -⟩ := exists_executes_of_step h
  have houtput : Transition.output ⟨machine, next⟩ = machine.outputAfter instruction := by
    unfold Transition.output
    rw [hexecutes.found]
  rw [houtput]
  exact ⟨hadmits, rfl⟩

/-- A step that succeeds with one sink is the same with every sink that has room for what it
    prints, and with any other it fails because of the sink. -/
theorem step_into (h : machine.step sink = ⟨next, out, .ok ()⟩) (other : Sink) :
    machine.step other =
      if other.admits (Transition.output ⟨machine, next⟩) then
        ⟨next, other.offer (Transition.output ⟨machine, next⟩), .ok ()⟩
      else
        ⟨machine.fetched, other.offer (Transition.output ⟨machine, next⟩),
          .error (.output other.refusal.reason)⟩ := by
  obtain ⟨instruction, hexecutes, -, -, rfl⟩ := exists_executes_of_step h
  rw [step_of_executes hexecutes]
  unfold Transition.output
  rw [hexecutes.found]

/-- PRN is the only instruction that a sink can refuse. -/
theorem instruction?_of_refused
    (h : other.admits (Transition.output ⟨machine, next⟩) = false) :
    machine.instruction? = some .prn := by
  by_contra hne
  rw [Transition.output_of_ne_prn hne, other.admits_empty] at h
  cases h

theorem sink_of_steps (hsteps : Steps machine sink history later rest) :
    sink.admits (printed history) = true ∧ rest = sink.offer (printed history) := by
  induction hsteps with
  | refl => exact ⟨sink.admits_empty, sink.offer_empty.symm⟩
  | snoc _ hstep ih =>
    obtain ⟨hadmits, rfl⟩ := ih
    obtain ⟨hlast, rfl⟩ := sink_of_step hstep
    rw [printed_append, printed_singleton, Sink.admits_append, Sink.offer_append, hadmits, hlast]
    exact ⟨rfl, rfl⟩

/-- Steps lead through the same machines into every sink that has room for what they print. -/
theorem steps_into (hsteps : Steps machine sink history later rest)
    (hadmits : other.admits (printed history) = true) :
    Steps machine other history later (other.offer (printed history)) := by
  induction hsteps with
  | refl =>
    rw [show other.offer (printed []) = other from other.offer_empty]
    exact .refl
  | snoc _ hstep ih =>
    rw [printed_append, printed_singleton, Sink.admits_append, Bool.and_eq_true] at hadmits
    rw [printed_append, printed_singleton, ← Sink.offer_append]
    refine (ih hadmits.1).snoc ?_
    rw [step_into hstep, if_pos hadmits.2]

/-- Without room for all of the output, the steps get as far as a PRN whose output does not fit
    any more. -/
theorem exists_refused_of_steps (hsteps : Steps machine sink history later rest)
    (hrefused : other.admits (printed history) = false) :
    ∃ before transition after, history = before ++ transition :: after ∧
      Steps machine other before transition.before (other.offer (printed before)) ∧
      transition.before.instruction? = some .prn ∧
      transition.before.step (other.offer (printed before)) =
        ⟨transition.before.fetched, other.offer (printed history),
          .error (.output other.refusal.reason)⟩ := by
  induction hsteps with
  | refl =>
    rw [show other.admits (printed []) = true from other.admits_empty] at hrefused
    cases hrefused
  | @snoc history later next rest out hsteps hstep ih =>
    cases hearlier : other.admits (printed history) with
    | true =>
      -- All steps but the last one fit.
      rw [printed_append, printed_singleton, Sink.admits_append, hearlier, Bool.true_and]
        at hrefused
      refine ⟨history, ⟨later, next⟩, [], rfl, steps_into hsteps hearlier,
        instruction?_of_refused hrefused, ?_⟩
      rw [step_into hstep, if_neg (Bool.eq_false_iff.mp hrefused), printed_append,
        printed_singleton, Sink.offer_append]
      rfl
    | false =>
      obtain ⟨before, transition, after, rfl, hbefore, hprn, hfails⟩ := ih hearlier
      refine ⟨before, transition, after ++ [⟨later, next⟩], by simp, hbefore, hprn, ?_⟩
      rw [printed_append _ [_], Sink.offer_append_of_not_admits _ _ _ hearlier]
      exact hfails

/-! ## Sinks with limited room -/

variable {free full limited : Sink} {output : String} {cap : Nat}

/-- What a sink without a limit has taken from the steps of a history. -/
theorem printed_of_steps (hfree : free.room = none) (hsteps : Steps machine free history later full)
    (houtput : full.written = free.written ++ output) : output = printed history := by
  obtain ⟨-, rfl⟩ := sink_of_steps hsteps
  rw [Sink.written_offer_of_room_none hfree] at houtput
  exact (String.append_right_inj _).mp houtput.symm

/-- Only a byte that is no opcode ends a run as such. -/
theorem Ends.unknown_of_unknownOpcode {final : Machine} {opcode : UInt8} {pc : Nat}
    (hends : Ends machine sink final out (.unknownOpcode opcode pc)) :
    machine.running = true ∧ machine.fault? = some (.unknownOpcode opcode) ∧
      pc = machine.pc.toNat ∧ final = { machine.fetched with running := false } ∧
      out = sink.offer machine.traceLine := by
  generalize hhalt : Halt.unknownOpcode opcode pc = halt at hends
  cases hends with
  | halted => cases hhalt
  | unknown hrunning hfault =>
    split at hhalt
    · cases hhalt
      exact ⟨hrunning, hfault, rfl, rfl, rfl⟩
    · cases hhalt
  | failed => cases hhalt

/-- The run that a sink without a limit lets come to a byte that is no opcode does so with any
    sink that has room for its output and the trace line, and otherwise it ends as the sink
    refuses the line or some output before it. -/
theorem returns_into (hsteps : Steps machine free history later full)
    (hrunning : ∀ transition ∈ history, transition.before.running = true)
    (hlater : later.running = true) {opcode : UInt8}
    (hfault : later.fault? = some (.unknownOpcode opcode)) (other : Sink) :
    (other.admits (printed history ++ later.traceLine) = true →
      Returns machine other { later.fetched with running := false }
        (other.offer (printed history ++ later.traceLine))
        (.unknownOpcode opcode later.pc.toNat)) ∧
    (other.admits (printed history ++ later.traceLine) = false →
      ∃ stopped, stopped.running = false ∧
        (other.admits (printed history) = true →
          stopped = { later.fetched with running := false }) ∧
        Returns machine other stopped (other.offer (printed history ++ later.traceLine))
          (.fault (.output other.refusal.reason))) := by
  cases hprinted : other.admits (printed history) with
  | true =>
    have hreturns := returns_iff.mpr
      ⟨history, later, _, steps_into hsteps hprinted, hrunning, .unknown hlater hfault⟩
    rw [Sink.admits_append, hprinted, Bool.true_and, ← Sink.offer_append]
    refine ⟨?_, ?_⟩
    · intro hfits
      rw [if_pos hfits] at hreturns
      exact hreturns
    · intro hrefused
      rw [if_neg (Bool.eq_false_iff.mp hrefused)] at hreturns
      exact ⟨_, rfl, fun _ => rfl, hreturns⟩
  | false =>
    -- The run ends at a PRN before it comes to the trace line.
    rw [Sink.admits_append, hprinted, Bool.false_and,
      Sink.offer_append_of_not_admits _ _ _ hprinted]
    refine ⟨fun h => absurd h Bool.false_ne_true, fun _ => ?_⟩
    obtain ⟨before, transition, after, rfl, hbefore, -, hfails⟩ :=
      exists_refused_of_steps hsteps hprinted
    obtain ⟨hrunningBefore, hrunningAfter⟩ := List.forall_mem_append.mp hrunning
    have hprn := hrunningAfter transition List.mem_cons_self
    refine ⟨{ transition.before.fetched with running := false }, rfl,
      fun h => absurd h Bool.false_ne_true, ?_⟩
    exact returns_iff.mpr
      ⟨before, _, _, hbefore, hrunningBefore, .failed hprn hfails (by simp)⟩

/-- **A sink with limited room cuts the output off and alters nothing else.** Let `output` be
    what the steps of a history print. A sink with room for `cap` bytes takes all of it, if it
    is not longer, and the steps are the same. Otherwise the steps are the same up to a PRN
    that fails because of the sink and changes nothing but the fetched opcode, and the sink
    has taken the first `cap` bytes of the output. The same holds of the output and trace line
    of a run that comes to a byte that is no opcode: without room for both the run ends with
    the fault of the sink. -/
theorem limited_sink_truncates (hfree : free.room = none) (hlimited : limited.room = some cap)
    (hsteps : Steps machine free history later full)
    (houtput : full.written = free.written ++ output) :
    IsAscii output ∧
    (output.length ≤ cap →
      ∃ out, Steps machine limited history later out ∧
        out.written = limited.written ++ output) ∧
    (cap < output.length →
      ∃ before transition after partway out, history = before ++ transition :: after ∧
        Steps machine limited before transition.before partway ∧
        transition.before.instruction? = some .prn ∧
        transition.before.step partway =
          ⟨{ transition.before with ir := Instruction.prn.opcode }, out,
            .error (.output limited.refusal.reason)⟩ ∧
        out.written = limited.written ++ String.ofList (output.toList.take cap)) ∧
    ∀ final last opcode pc, Returns machine free final last (.unknownOpcode opcode pc) →
      ∃ text : String,
        let whole := text ++ (final.trace.text ++ "\n")
        IsAscii whole ∧ last.written = free.written ++ whole ∧
        (whole.length ≤ cap →
          ∃ out, Returns machine limited final out (.unknownOpcode opcode pc) ∧
            out.written = limited.written ++ whole) ∧
        (cap < whole.length →
          ∃ stopped out,
            Returns machine limited stopped out (.fault (.output limited.refusal.reason)) ∧
            stopped.running = false ∧ (text.length ≤ cap → stopped = final) ∧
            out.written = limited.written ++ String.ofList (whole.toList.take cap)) := by
  obtain rfl := printed_of_steps hfree hsteps houtput
  have hfits (text : String) (h : text.length ≤ cap) : limited.admits text = true :=
    (limited.admits_eq_true_iff hlimited).mpr h
  have hexceeds (text : String) (h : cap < text.length) : limited.admits text = false :=
    Bool.eq_false_iff.mpr (mt (limited.admits_eq_true_iff hlimited).mp (Nat.not_le.mpr h))
  refine ⟨.printed history, ?_, ?_, ?_⟩
  · intro hlength
    exact ⟨_, steps_into hsteps (hfits _ hlength),
      Sink.written_offer_of_admits (hfits _ hlength)⟩
  · intro hlength
    obtain ⟨before, transition, after, hhistory, hbefore, hprn, hfails⟩ :=
      exists_refused_of_steps hsteps (hexceeds _ hlength)
    obtain ⟨hlt, hopcode⟩ := instruction?_eq_some_iff.mp hprn
    rw [fetched_of_lt _ hlt, ← hopcode] at hfails
    exact ⟨before, transition, after, _, _, hhistory, hbefore, hprn, hfails,
      limited.written_offer_of_room_some hlimited _⟩
  · intro final last opcode pc hreturns
    obtain ⟨history, later, rest, hsteps, hrunning, hends⟩ := returns_iff.mp hreturns
    obtain ⟨hlater, hfault, rfl, rfl, rfl⟩ := hends.unknown_of_unknownOpcode
    obtain ⟨hlt, -, -⟩ := fault?_eq_unknownOpcode_iff.mp hfault
    obtain ⟨-, rfl⟩ := sink_of_steps hsteps
    obtain ⟨hwhole, hcut⟩ := returns_into hsteps hrunning hlater hfault limited
    refine ⟨printed history, ?_, ?_, ?_, ?_⟩
    · exact (IsAscii.printed history).append ((IsAscii.trace hlt).append (by decide +kernel))
    · rw [Sink.offer_append, Sink.written_offer_of_room_none hfree]
      rfl
    · intro hlength
      exact ⟨_, hwhole (hfits _ hlength), Sink.written_offer_of_admits (hfits _ hlength)⟩
    · intro hlength
      obtain ⟨stopped, hstopped, hsame, hlimitedRun⟩ := hcut (hexceeds _ hlength)
      exact ⟨stopped, _, hlimitedRun, hstopped, fun hshort => hsame (hfits _ hshort),
        limited.written_offer_of_room_some hlimited _⟩

/-- A sink with room for five bytes takes the first line that is printed and the digit of the
    second one, and so the second PRN fails. -/
theorem limited_sink_truncates_second_line :
    let start := ofProgram ⟨[0x47, 7, 0x47, 0, 0xFF], by decide⟩
    let one := start.step .unlimited
    let two := one.machine.step one.sink
    let limited : Sink := { room := some 5 }
    Steps start .unlimited [⟨start, one.machine⟩, ⟨one.machine, two.machine⟩]
      two.machine two.sink ∧
    two.sink.written = Sink.unlimited.written ++ "244\n0\n" ∧
    ∃ before transition after partway out,
      [⟨start, one.machine⟩, ⟨one.machine, two.machine⟩] = before ++ transition :: after ∧
      Steps start limited before transition.before partway ∧
      transition.before.instruction? = some .prn ∧
      transition.before.step partway =
        ⟨{ transition.before with ir := Instruction.prn.opcode }, out,
          .error (.output limited.refusal.reason)⟩ ∧
      out.written = limited.written ++ String.ofList ("244\n0\n".toList.take 5) := by
  intro start one two limited
  have hone : start.step .unlimited = ⟨one.machine, one.sink, .ok ()⟩ :=
    step_of_room_none rfl (by decide +kernel)
  have htwo : one.machine.step one.sink = ⟨two.machine, two.sink, .ok ()⟩ :=
    step_of_room_none (by decide +kernel) (by decide +kernel)
  have hsteps : Steps start .unlimited [⟨start, one.machine⟩, ⟨one.machine, two.machine⟩]
      two.machine two.sink := (Steps.refl.snoc hone).snoc htwo
  have hwritten : two.sink.written = Sink.unlimited.written ++ "244\n0\n" := by decide +kernel
  have hlimited : limited.room = some 5 := rfl
  obtain ⟨-, -, hcut, -⟩ := limited_sink_truncates rfl hlimited hsteps hwritten
  exact ⟨hsteps, hwritten, hcut (by decide +kernel)⟩

end Machine

end ByteMachine
