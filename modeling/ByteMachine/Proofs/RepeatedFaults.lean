import ByteMachine.Proofs.Limits
import ByteMachine.Proofs.Stopped
/-!
# Faults that come back

A step that fails for a reason of the machine has fetched the opcode and done nothing else. No
check asks what was fetched before, whether the machine runs, or what the sink has room for. So
the same step fails again with the same fault, into whatever sink, and after that nothing is left
that it could change. A run that ends with the step has also stopped the machine, which no check
asks for either.

A fault of the sink is different: the next sink may take what the first one has refused.

## Main statements

- `refuses_of_fault`: a machine that has fetched and faults does so at every attempt.
- `faults_recur`: what a step with a fault leaves faults in this way, and so does what the run
  leaves that the step has ended.
-/

namespace ByteMachine.Machine

variable {machine : Machine} {sink : Sink} {fault : Fault}

/-! ## Attempts -/

/-- The replies to attempts at a step, each into a sink of its own. Every attempt is made on the
    machine that the one before it has left. -/
def attempts : Machine → List Sink → List (Reply Unit)
  | _, [] => []
  | machine, sink :: sinks =>
    let reply := machine.step sink
    reply :: attempts reply.machine sinks

/-- Every attempt at a step fails with the fault, prints nothing and leaves the machine as it
    is. -/
def Refuses (machine : Machine) (fault : Fault) : Prop :=
  ∀ sinks, machine.attempts sinks = sinks.map fun sink => ⟨machine, sink, .error fault⟩

/-! ## What a failed step leaves -/

/-- To fetch once more changes nothing. -/
theorem fetched_fetched (machine : Machine) : machine.fetched.fetched = machine.fetched := by
  rcases Nat.lt_or_ge machine.pc.toNat 256 with hlt | hge
  · rw [machine.fetched_of_lt hlt]
    exact fetched_of_lt _ hlt
  · rw [machine.fetched_of_ge hge, machine.fetched_of_ge hge]

/-- The checks do not look at the fetched opcode. -/
theorem fault?_fetched (machine : Machine) : machine.fetched.fault? = machine.fault? := rfl

/-- A machine that has fetched and faults does so at every attempt. -/
theorem refuses_of_fault (hfault : machine.fault? = some fault)
    (hfetched : machine.fetched = machine) : machine.Refuses fault := by
  intro sinks
  induction sinks with
  | nil => rfl
  | cons sink rest ih =>
    have hstep : machine.step sink = ⟨machine, sink, .error fault⟩ := by
      rw [step_of_fault hfault, hfetched]
    rw [attempts, hstep, List.map_cons, ← ih]

/-- What a step with a fault leaves faults at every attempt, also if it is started or stopped
    before them. -/
theorem refuses_fetched (hfault : machine.fault? = some fault) (running : Bool) :
    (machine.fetched.withRunning running).Refuses fault := by
  apply refuses_of_fault
  · rw [fault?_withRunning, fault?_fetched]
    exact hfault
  · rw [fetched_withRunning, fetched_fetched]

/-- A fault that is not the sink's is one of the checks, and the step has only fetched. -/
theorem fault?_of_step_error (hresult : (machine.step sink).result = .error fault)
    (hown : ∀ reason, fault ≠ .output reason) :
    machine.fault? = some fault ∧ (machine.step sink).machine = machine.fetched := by
  have hstep : machine.step sink =
      ⟨(machine.step sink).machine, (machine.step sink).sink, .error fault⟩ := by
    rw [← hresult]
  obtain ⟨hmachine, ⟨hfault, -⟩ | ⟨-, houtput⟩⟩ := reply_of_step_error hstep
  · exact ⟨hfault, hmachine⟩
  · exact absurd houtput (hown _)

/-! ## Runs that a fault ends -/

/-- Whatever the fault is, a machine that is stopped on it only stops. -/
theorem machine_stop (machine : Machine) (sink : Sink) (fault : Fault) :
    (machine.stop sink fault).machine = machine.withRunning false := by
  cases fault <;> rfl

/-- A run that comes to a machine with a fault ends there, and leaves the machine fetched and
    stopped. -/
theorem exists_run_of_fault {start : Machine} {first : Sink} {history : List Transition}
    (hsteps : Steps start first history machine sink)
    (hbefore : ∀ transition ∈ history, transition.before.running = true)
    (hrunning : machine.running = true) (hfault : machine.fault? = some fault) :
    ∃ ended, start.run first = Part.some ended ∧
      ended.machine = machine.fetched.withRunning false := by
  -- One step more than there are in the history.
  have hrun : start.runFor (history.length + 1) first = machine.fetched.stop sink fault := by
    rw [runFor_of_steps hsteps hbefore]
    exact runFor_succ_of_error hrunning (step_of_fault hfault sink) 0
  obtain ⟨halt, hhalt⟩ := exists_halt_stop machine.fetched sink fault
  refine ⟨machine.fetched.stop sink fault, ?_, machine_stop ..⟩
  rw [← hrun] at hhalt ⊢
  exact run_of_halt hhalt

/-- **Faults are reproducible.** If a step fails with a fault that is not the sink's, then the
    machine that it leaves fails with this fault at every attempt, whatever the sinks are and
    however many attempts are made, and no attempt prints anything or changes a field of the
    machine. To start or to stop the machine before the attempts makes no difference. In
    particular this holds of the machine that a run leaves whose last step it was. -/
theorem faults_recur (hresult : (machine.step sink).result = .error fault)
    (hown : ∀ reason, fault ≠ .output reason) :
    (machine.step sink).machine.Refuses fault ∧
    (∀ running, ((machine.step sink).machine.withRunning running).Refuses fault) ∧
    ∀ start first history, Steps start first history machine sink →
      (∀ transition ∈ history, transition.before.running = true) → machine.running = true →
      ∃ ended, start.run first = Part.some ended ∧ ended.machine.Refuses fault := by
  obtain ⟨hfault, hmachine⟩ := fault?_of_step_error hresult hown
  rw [hmachine]
  refine ⟨?left, refuses_fetched hfault, ?runs⟩
  case left => exact refuses_fetched hfault machine.running
  case runs =>
    intro start first history hsteps hbefore hrunning
    obtain ⟨ended, hrun, hended⟩ := exists_run_of_fault hsteps hbefore hrunning hfault
    refine ⟨ended, hrun, ?_⟩
    rw [hended]
    exact refuses_fetched hfault false

/-- POP finds nothing on the stack of a fresh machine. It finds nothing later either, be it into
    a sink with room or into one without. -/
theorem faults_recur_empty_stack :
    let machine := ofProgram ⟨[0x46, 0x00], by decide⟩
    let full : Sink := { room := some 0, refusal := .failing "full" }
    ((machine.step .unlimited).result = .error .stackUnderflow ∧
      ∀ reason, Fault.stackUnderflow ≠ .output reason) ∧
    (machine.step .unlimited).machine.attempts [full, .unlimited] =
      [⟨(machine.step .unlimited).machine, full, .error .stackUnderflow⟩,
        ⟨(machine.step .unlimited).machine, .unlimited, .error .stackUnderflow⟩] ∧
    ∃ ended, machine.run .unlimited = Part.some ended ∧ ended.machine.Refuses .stackUnderflow := by
  intro machine full
  have hfault : machine.fault? = some .stackUnderflow := by decide +kernel
  have hresult : (machine.step .unlimited).result = .error .stackUnderflow := by
    rw [step_of_fault hfault]
  have hown : ∀ reason, Fault.stackUnderflow ≠ .output reason := by simp
  obtain ⟨hrefuses, -, hruns⟩ := faults_recur hresult hown
  exact ⟨⟨hresult, hown⟩, hrefuses [full, .unlimited],
    hruns machine .unlimited [] .refl (by simp) rfl⟩

end ByteMachine.Machine
