import ByteMachine.Proofs.JsonWords
import ByteMachine.Proofs.Output
/-!
# Printed lines

All that a program prints are the lines of its PRNs. Each line is the decimal numeral of a
register as it was right before the PRN, and the lines come in the order of the PRNs. A run
prints one line more if it comes to a byte that is no opcode, the trace of the machine that it
leaves, and no other end of a run prints anything.

## Main statements

- `printed_eq_join_prnLines`: the output of a history is the lines of its PRNs.
- `output_is_prn_lines`: the output of steps and of runs, into a sink without a limit.
-/

namespace ByteMachine

/-! ## Numerals -/

/-- The text is the decimal numeral of a number: one digit or more and nothing else, with no
    zero in front of another digit, and with the number as their value. -/
structure IsDecimal (n : Nat) (text : String) : Prop where
  digits : ∀ c ∈ text.toList, c.isDigit = true
  not_empty : text.toList ≠ []
  leading : text.toList.head? = some '0' → text.toList = ['0']
  value : Nat.ofDigitChars 10 text.toList 0 = n

theorem isDecimal_repr (n : Nat) : IsDecimal n n.repr where
  digits c hmem := by
    rw [Nat.toList_repr] at hmem
    exact Nat.isDigit_of_mem_toDigits (by decide) (by decide) hmem
  not_empty := by
    rw [Nat.toList_repr]
    exact Nat.toDigits_ne_nil
  leading hhead := by
    rw [Nat.toList_repr] at hhead ⊢
    -- Zero is the only number with a numeral like this.
    obtain rfl : n = 0 := by
      by_contra hne
      exact Json.head?_toDigits_ne hne hhead
    exact Nat.toDigits_zero 10
  value := by
    rw [Nat.toList_repr]
    exact Nat.ofDigitChars_ten_toDigits

/-! ## The lines of a history -/

/-- The lines that the PRNs of a history print, in order: each shows the register that its PRN
    names, as the machine before it has it. -/
def prnLines (history : List Transition) : List String :=
  (history.filter (·.carriesOut [.prn])).map fun transition =>
    transition.before.registerA.toNat.repr ++ "\n"

/-- A step carries out PRN if that is the instruction at the program counter. -/
theorem Transition.carriesOut_singleton_iff {transition : Transition} {instruction : Instruction} :
    transition.carriesOut [instruction] = true ↔
      transition.before.instruction? = some instruction := by
  unfold carriesOut
  cases transition.before.instruction? with
  | none => simp
  | some found => simp

/-- **What a history prints are the lines of its PRNs**, one after the other. -/
theorem printed_eq_join_prnLines (history : List Transition) :
    printed history = String.join (prnLines history) := by
  induction history with
  | nil => rfl
  | cons transition rest ih =>
    have hcons : printed (transition :: rest) = transition.output ++ printed rest := by
      rw [← List.singleton_append, printed_append, printed_singleton]
    rw [hcons, ih]
    by_cases hprn : transition.carriesOut [.prn] = true
    · rw [Transition.output_of_prn (Transition.carriesOut_singleton_iff.mp hprn)]
      simp [prnLines, hprn, String.join_cons]
    · -- Any other step prints nothing and has no line either.
      rw [Transition.output_of_ne_prn (mt Transition.carriesOut_singleton_iff.mpr hprn)]
      simp [prnLines, hprn]

namespace Machine

variable {machine later final : Machine} {sink out rest : Sink} {history : List Transition}
  {halt : Halt} {fault : Fault}

/-! ## The ends of runs -/

/-- A step that fails has printed nothing, unless it is the sink that made it fail. -/
theorem sink_of_failed_step (hfree : sink.room = none)
    (h : (machine.step sink).result = .error fault) : (machine.step sink).sink = sink := by
  have hstep : machine.step sink =
      ⟨(machine.step sink).machine, (machine.step sink).sink, .error fault⟩ := by rw [← h]
  rcases (reply_of_step_error hstep).2 with ⟨-, hsink⟩ | ⟨hclear, -⟩
  · exact hsink
  · rw [result_of_room_none machine hfree, hclear] at h
    cases h

/-- The text that a run prints behind its last step, from what it leaves and why it ended. -/
def lastWords (final : Machine) : Halt → String
  | .unknownOpcode _ _ => final.trace.text ++ "\n"
  | .halted | .fault _ => ""

/-- What a sink without a limit gets at the end of a run. -/
theorem Ends.written (hends : Ends later rest final out halt) (hfree : rest.room = none) :
    out.written = rest.written ++ lastWords final halt := by
  cases hends with
  | halted => exact String.append_empty.symm
  | unknown =>
    rw [if_pos (Sink.admits_of_room_none hfree _)]
    exact Sink.written_offer_of_room_none hfree _
  | failed _ hstep =>
    obtain rfl : out = rest := by
      have hsink := sink_of_failed_step hfree (congrArg Reply.result hstep)
      rwa [hstep] at hsink
    exact String.append_empty.symm

/-- What a sink without a limit gets from steps. -/
theorem written_of_steps (hfree : sink.room = none)
    (hsteps : Steps machine sink history later rest) :
    rest.room = none ∧ rest.written = sink.written ++ String.join (prnLines history) := by
  obtain ⟨-, rfl⟩ := sink_of_steps hsteps
  rw [printed_eq_join_prnLines]
  exact ⟨Sink.room_offer_of_room_none hfree _, Sink.written_offer_of_room_none hfree _⟩

/-- **The output of a program are the lines of its PRNs.** Into a sink without a limit, any
    successful steps write these lines, and a step that fails writes nothing. A run that returns
    writes the lines of the steps that it has made, and then the trace of the machine that it
    leaves, as one more line, exactly if a byte that is no opcode has ended it. The numerals on
    the lines are decimal numerals. -/
theorem output_is_prn_lines (hfree : sink.room = none) :
    (∀ history later rest, Steps machine sink history later rest →
      rest.written = sink.written ++ String.join (prnLines history)) ∧
    (∀ fault, (machine.step sink).result = .error fault → (machine.step sink).sink = sink) ∧
    (∀ final out halt, Returns machine sink final out halt →
      ∃ history later rest, Steps machine sink history later rest ∧
        (∀ transition ∈ history, transition.before.running = true) ∧
        Ends later rest final out halt ∧
        out.written =
          sink.written ++ String.join (prnLines history) ++ lastWords final halt) ∧
    ∀ n : Nat, IsDecimal n n.repr := by
  refine ⟨?_, ?_, ?_, isDecimal_repr⟩
  · intro history later rest hsteps
    exact (written_of_steps hfree hsteps).2
  · intro fault h
    exact sink_of_failed_step hfree h
  · intro final out halt hreturns
    obtain ⟨history, later, rest, hsteps, hrunning, hends⟩ := returns_iff.mp hreturns
    obtain ⟨hroom, hwritten⟩ := written_of_steps hfree hsteps
    refine ⟨history, later, rest, hsteps, hrunning, hends, ?_⟩
    rw [hends.written hroom, hwritten]

/-- A register is printed before and after it is changed, and then the run comes to a byte that
    is no opcode. -/
theorem output_is_prn_lines_unknown_opcode :
    let start := ofProgram ⟨[0x47, 0, 0x66, 0, 0x47, 0, 0xFF], by decide⟩
    let run := start.runFor 4 .unlimited
    Sink.unlimited.room = none ∧
    Returns start .unlimited run.machine run.sink (.unknownOpcode 0xFF 6) ∧
    run.sink.written =
      "0\n255\nTRACE: 06 | 00 | FF 00 00 | FF 00 00 00 00 00 00 F4\n" ∧
    ∃ history later rest, Steps start .unlimited history later rest ∧
      (∀ transition ∈ history, transition.before.running = true) ∧
      Ends later rest run.machine run.sink (.unknownOpcode 0xFF 6) ∧
      run.sink.written = Sink.unlimited.written ++ String.join (prnLines history) ++
        (run.machine.trace.text ++ "\n") := by
  intro start run
  have hhalt : run.halt = some (.unknownOpcode 0xFF 6) := by decide +kernel
  have hreturns := returns_of_halt hhalt
  obtain ⟨-, -, hrun, -⟩ := @output_is_prn_lines start .unlimited rfl
  exact ⟨rfl, hreturns, by decide +kernel, hrun _ _ _ hreturns⟩

end Machine

end ByteMachine
