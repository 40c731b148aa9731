import ByteMachine.Proofs.Runs
import Mathlib.Data.PFun
/-!
# Runs and their limits

A limit on the steps of a run is only a way to look at it. A run may be taken up where its
limit has stopped it, and it goes on as if there had been one limit from the start; a run
that has ended within a limit is the same for every larger one. So the limit can be as large
as one likes, and what the limited runs end with is what the run without a limit returns. That
one is a loop of rounds, and since a program need not end, its value is partial.

## Main statements

- `runFor_add`: a run with two limits, one after the other, is the run with their sum.
- `mem_run_iff`: the run returns what a run with some limit ends with.
- `bounded_runs_compose`: both together, for every machine and sink.
-/

namespace ByteMachine

/-- Goes on with a run for at most the given number of steps. A run that has ended is left as
    it is. -/
def Run.resume (run : Run) (limit : Nat) : Run :=
  match run.halt with
  | none => run.machine.runFor limit run.sink
  | some _ => run

/-- A run that has ended stays as it is. -/
theorem Run.resume_of_halt {run : Run} {halt : Halt} (h : run.halt = some halt) (limit : Nat) :
    run.resume limit = run := by
  unfold resume
  rw [h]

namespace Machine

variable {machine : Machine} {sink : Sink} {halt : Halt} {limit : Nat} {ended : Run}

/-- Whatever stops a machine is the end of its run. -/
theorem exists_halt_stop (machine : Machine) (sink : Sink) (fault : Fault) :
    ∃ halt, (machine.stop sink fault).halt = some halt := by
  cases fault <;> exact ⟨_, rfl⟩

/-! ## One limit after the other -/

/-- **A run may be interrupted**: with a limit and then another one it gets as far as with
    their sum. -/
theorem runFor_add (machine : Machine) (sink : Sink) (first second : Nat) :
    machine.runFor (first + second) sink = (machine.runFor first sink).resume second := by
  -- The induction is on the first limit; a run that ends within it uses nothing of the second.
  induction first generalizing machine sink with
  | zero =>
    cases hrunning : machine.running with
    | false =>
      rw [runFor_of_not_running hrunning, runFor_of_not_running hrunning]
      rfl
    | true => simp only [Nat.zero_add, runFor, hrunning, if_true, Run.resume]
  | succ first ih =>
    rw [Nat.succ_add]
    cases hrunning : machine.running with
    | false =>
      rw [runFor_of_not_running hrunning, runFor_of_not_running hrunning]
      rfl
    | true =>
      rcases hstep : machine.step sink with ⟨next, out, fault | ⟨⟩⟩
      · rw [runFor_succ_of_error hrunning hstep, runFor_succ_of_error hrunning hstep]
        obtain ⟨halt, hhalt⟩ := exists_halt_stop next out fault
        exact (Run.resume_of_halt hhalt second).symm
      · rw [runFor_succ_of_ok hrunning hstep, runFor_succ_of_ok hrunning hstep]
        exact ih next out

/-- A run that has ended within a limit is the same for every larger one. -/
theorem runFor_of_le (h : (machine.runFor limit sink).halt = some halt) {larger : Nat}
    (hle : limit ≤ larger) : machine.runFor larger sink = machine.runFor limit sink := by
  obtain ⟨more, rfl⟩ := Nat.exists_eq_add_of_le hle
  rw [runFor_add]
  exact Run.resume_of_halt h more

/-! ## No limit at all -/

/-- One round of the loop that runs a machine: it ends the run, or it leaves a machine and a sink
    to go on with. -/
def round (here : Machine × Sink) : Run ⊕ Machine × Sink :=
  if here.1.running then
    match here.1.step here.2 with
    | ⟨machine, sink, .ok ()⟩ => .inr (machine, sink)
    | ⟨machine, sink, .error fault⟩ => .inl (machine.stop sink fault)
  else .inl ⟨here.1, here.2, some .halted⟩

/-- Runs the machine, round after round, to the end of its run. It has no value if there is no
    end. -/
def run (machine : Machine) (sink : Sink) : Part Run :=
  PFun.fix (fun here => Part.some (round here)) (machine, sink)

theorem round_of_not_running (h : machine.running = false) :
    round (machine, sink) = .inl ⟨machine, sink, some .halted⟩ := by
  simp [round, h]

theorem round_of_ok {next : Machine} {out : Sink} (hrunning : machine.running = true)
    (hstep : machine.step sink = ⟨next, out, .ok ()⟩) :
    round (machine, sink) = .inr (next, out) := by
  simp [round, hrunning, hstep]

theorem round_of_error {next : Machine} {out : Sink} {fault : Fault}
    (hrunning : machine.running = true) (hstep : machine.step sink = ⟨next, out, .error fault⟩) :
    round (machine, sink) = .inl (next.stop out fault) := by
  simp [round, hrunning, hstep]

/-- The loop goes on only after a step that was made. -/
theorem step_of_round {next : Machine} {out : Sink}
    (h : round (machine, sink) = .inr (next, out)) :
    machine.running = true ∧ machine.step sink = ⟨next, out, .ok ()⟩ := by
  cases hrunning : machine.running with
  | false =>
    rw [round_of_not_running hrunning] at h
    cases h
  | true =>
    rcases hstep : machine.step sink with ⟨later, rest, fault | ⟨⟩⟩
    · rw [round_of_error hrunning hstep] at h
      cases h
    · rw [round_of_ok hrunning hstep] at h
      cases h
      exact ⟨rfl, rfl⟩

/-- The round that ends a run needs a limit of one step at most. -/
theorem runFor_one_of_round (h : round (machine, sink) = .inl ended) :
    ∃ halt, machine.runFor 1 sink = ended ∧ ended.halt = some halt := by
  cases hrunning : machine.running with
  | false =>
    rw [round_of_not_running hrunning] at h
    cases h
    exact ⟨.halted, runFor_of_not_running hrunning 1 sink, rfl⟩
  | true =>
    rcases hstep : machine.step sink with ⟨next, out, fault | ⟨⟩⟩
    · rw [round_of_error hrunning hstep] at h
      cases h
      obtain ⟨halt, hhalt⟩ := exists_halt_stop next out fault
      exact ⟨halt, runFor_succ_of_error hrunning hstep 0, hhalt⟩
    · rw [round_of_ok hrunning hstep] at h
      cases h

/-- A round that ends the run is its last one. -/
theorem run_of_round_inl (h : round (machine, sink) = .inl ended) :
    machine.run sink = Part.some ended := by
  apply Part.eq_some_iff.mpr
  apply PFun.fix_stop
  rw [h]
  exact Part.mem_some _

/-- A round that does not end the run leaves the rest of it. -/
theorem run_of_round_inr {next : Machine} {out : Sink}
    (h : round (machine, sink) = .inr (next, out)) : machine.run sink = next.run out := by
  apply PFun.fix_fwd_eq
  rw [h]
  exact Part.mem_some _

theorem run_of_not_running (h : machine.running = false) (limit : Nat) :
    machine.run sink = Part.some (machine.runFor limit sink) := by
  rw [runFor_of_not_running h]
  exact run_of_round_inl (round_of_not_running h)

/-- What a run with a limit has ended with is what the run returns. -/
theorem run_of_halt (h : (machine.runFor limit sink).halt = some halt) :
    machine.run sink = Part.some (machine.runFor limit sink) := by
  induction limit generalizing machine sink with
  | zero =>
    cases hrunning : machine.running with
    | false => exact run_of_not_running hrunning 0
    | true =>
      -- A limit of no steps does not let a running machine come to an end.
      simp [runFor, hrunning] at h
  | succ limit ih =>
    cases hrunning : machine.running with
    | false => exact run_of_not_running hrunning (limit + 1)
    | true =>
      rcases hstep : machine.step sink with ⟨next, out, fault | ⟨⟩⟩
      · rw [runFor_succ_of_error hrunning hstep]
        exact run_of_round_inl (round_of_error hrunning hstep)
      · rw [runFor_succ_of_ok hrunning hstep] at h ⊢
        rw [run_of_round_inr (round_of_ok hrunning hstep)]
        exact ih h

/-- A run that returns has made only so many steps. The induction is on the rounds that it has
    gone through, from the last one back. -/
theorem exists_limit_of_run (h : ended ∈ machine.run sink) :
    ∃ limit halt, machine.runFor limit sink = ended ∧ ended.halt = some halt := by
  refine PFun.fixInduction' (C := fun here : Machine × Sink =>
    ∃ limit halt, here.1.runFor limit here.2 = ended ∧ ended.halt = some halt) h ?last ?more
  case last =>
    rintro ⟨machine, sink⟩ hround
    rw [Part.mem_some_iff] at hround
    exact ⟨1, runFor_one_of_round hround.symm⟩
  case more =>
    rintro ⟨machine, sink⟩ ⟨next, out⟩ - hround ⟨limit, halt, hrun, hhalt⟩
    rw [Part.mem_some_iff] at hround
    obtain ⟨hrunning, hstep⟩ := step_of_round hround.symm
    exact ⟨limit + 1, halt, (runFor_succ_of_ok hrunning hstep limit).trans hrun, hhalt⟩

/-- **The run returns what a run with some limit ends with**, and nothing else. -/
theorem mem_run_iff :
    ended ∈ machine.run sink ↔
      ∃ limit halt, machine.runFor limit sink = ended ∧ ended.halt = some halt := by
  constructor
  · exact exists_limit_of_run
  · rintro ⟨limit, halt, rfl, hhalt⟩
    rw [run_of_halt hhalt]
    exact Part.mem_some _

/-- A run returns exactly if some limit lets it end. -/
theorem dom_run_iff :
    (machine.run sink).Dom ↔ ∃ limit halt, (machine.runFor limit sink).halt = some halt := by
  rw [Part.dom_iff_mem]
  constructor
  · rintro ⟨ended, hmem⟩
    obtain ⟨limit, halt, rfl, hhalt⟩ := mem_run_iff.mp hmem
    exact ⟨limit, halt, hhalt⟩
  · rintro ⟨limit, halt, hhalt⟩
    exact ⟨_, mem_run_iff.mpr ⟨limit, halt, rfl, hhalt⟩⟩

/-- **Limits compose, and the run is their limit case.** A run with a sum of limits is the run
    with the first one, taken up with the second one if the first one has stopped it. Once a
    limit is large enough for the run to end, every larger one gives the same machine, sink and
    reason, and so does the run without a limit. That run returns exactly if there is such a
    limit. -/
theorem bounded_runs_compose (machine : Machine) (sink : Sink) :
    (∀ first second,
      machine.runFor (first + second) sink = (machine.runFor first sink).resume second) ∧
    (∀ limit halt, (machine.runFor limit sink).halt = some halt →
      (∀ larger, limit ≤ larger → machine.runFor larger sink = machine.runFor limit sink) ∧
      machine.run sink = Part.some (machine.runFor limit sink)) ∧
    ((machine.run sink).Dom ↔
      ∃ limit halt, (machine.runFor limit sink).halt = some halt) := by
  refine ⟨machine.runFor_add sink, ?_, dom_run_iff⟩
  intro limit halt h
  constructor
  · intro larger hle
    exact runFor_of_le h hle
  · exact run_of_halt h

/-- The first limit stops a run right before a byte that is no opcode, and the second one leaves
    it to print its trace line, once. -/
theorem bounded_runs_compose_unknown_opcode :
    let start := ofProgram ⟨[0x00, 0xFF], by decide⟩
    (start.runFor 1 .unlimited).halt = none ∧
    ((start.runFor 1 .unlimited).resume 1).halt = some (.unknownOpcode 0xFF 1) ∧
    ((start.runFor 1 .unlimited).resume 1).sink.written =
      "TRACE: 01 | 00 | FF 00 00 | 00 00 00 00 00 00 00 F4\n" ∧
    start.runFor 4 .unlimited = (start.runFor 1 .unlimited).resume 1 ∧
    start.run .unlimited = Part.some ((start.runFor 1 .unlimited).resume 1) := by
  intro start
  obtain ⟨hadd, hends, -⟩ := bounded_runs_compose start .unlimited
  have htwo : start.runFor 2 .unlimited = (start.runFor 1 .unlimited).resume 1 := hadd 1 1
  have hhalt : (start.runFor 2 .unlimited).halt = some (.unknownOpcode 0xFF 1) := by
    decide +kernel
  have hwritten : (start.runFor 2 .unlimited).sink.written =
      "TRACE: 01 | 00 | FF 00 00 | 00 00 00 00 00 00 00 F4\n" := by
    decide +kernel
  obtain ⟨hlarger, hrun⟩ := hends 2 _ hhalt
  rw [← htwo]
  exact ⟨by decide +kernel, hhalt, hwritten, hlarger 4 (by decide), hrun⟩

end Machine

end ByteMachine
