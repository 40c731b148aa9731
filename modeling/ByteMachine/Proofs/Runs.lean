import ByteMachine.Machine.Run
import ByteMachine.Proofs.History
/-!
# Runs and histories

A run makes steps as long as they succeed and the machine runs. Here it is taken apart
into the history of these steps and the end that follows them: either the machine does
not run any more, or one more step fails and the machine is stopped. A run that returns
does so whatever its limit is, as long as the limit is not too small, so it is the
history that counts and not the limit.

## Main statements

- `runFor_of_steps`: the steps of running machines are the beginning of a run.
- `returns_iff`: a run returns exactly if such steps come to an end.
-/

namespace ByteMachine.Machine

variable {machine next later : Machine} {sink out rest : Sink} {history : List Transition}

/-! ## Histories one after the other -/

theorem Steps.trans {middle : Machine} {between : Sink} {first second : List Transition}
    (hfirst : Steps machine sink first middle between)
    (hsecond : Steps middle between second later rest) :
    Steps machine sink (first ++ second) later rest := by
  induction hsecond with
  | refl =>
    rw [List.append_nil]
    exact hfirst
  | snoc _ hstep ih =>
    rw [← List.append_assoc]
    exact ih.snoc hstep

theorem Steps.cons (hstep : machine.step sink = ⟨next, out, .ok ()⟩)
    (hsteps : Steps next out history later rest) :
    Steps machine sink (⟨machine, next⟩ :: history) later rest :=
  (Steps.refl.snoc hstep).trans hsteps

/-- A history begins with the step of its first machine, if there is a step at all. -/
theorem Steps.eq_nil_or_cons (hsteps : Steps machine sink history later rest) :
    history = [] ∨ ∃ next out tail, history = ⟨machine, next⟩ :: tail ∧
      machine.step sink = ⟨next, out, .ok ()⟩ ∧ Steps next out tail later rest := by
  induction hsteps with
  | refl => exact .inl rfl
  | @snoc earlier last next between out hearlier hstep ih =>
    right
    rcases ih with hnone | ⟨second, into, tail, rfl, hfirst, htail⟩
    · cases hearlier with
      | refl => exact ⟨next, out, [], rfl, hstep, .refl⟩
      | snoc => simp at hnone
    · exact ⟨second, into, tail ++ [⟨last, next⟩], rfl, hfirst, htail.snoc hstep⟩

/-! ## Runs by their first step -/

theorem runFor_succ_of_ok (hrunning : machine.running = true)
    (hstep : machine.step sink = ⟨next, out, .ok ()⟩) (limit : Nat) :
    machine.runFor (limit + 1) sink = next.runFor limit out := by
  simp only [runFor, hrunning, if_true, hstep]

theorem runFor_succ_of_error {fault : Fault} (hrunning : machine.running = true)
    (hstep : machine.step sink = ⟨next, out, .error fault⟩) (limit : Nat) :
    machine.runFor (limit + 1) sink = next.stop out fault := by
  simp only [runFor, hrunning, if_true, hstep]

/-- Steps that were made while the machine was running are the beginning of its run. -/
theorem runFor_of_steps (hsteps : Steps machine sink history later rest)
    (hrunning : ∀ transition ∈ history, transition.before.running = true) (limit : Nat) :
    machine.runFor (history.length + limit) sink = later.runFor limit rest := by
  induction hsteps generalizing limit with
  | refl => rw [List.length_nil, Nat.zero_add]
  | snoc _ hstep ih =>
    obtain ⟨hearlier, hlast⟩ := List.forall_mem_append.mp hrunning
    rw [List.forall_mem_singleton] at hlast
    rw [List.length_append, List.length_singleton, Nat.add_assoc, Nat.add_comm 1,
      ih hearlier, runFor_succ_of_ok hlast hstep]

/-! ## Ends of runs -/

theorem stop_of_known {fault : Fault} (h : ∀ opcode, fault ≠ .unknownOpcode opcode) :
    machine.stop sink fault =
      ⟨{ machine with running := false }, sink, some (.fault fault)⟩ := by
  cases fault
  case unknownOpcode opcode => exact absurd rfl (h opcode)
  all_goals rfl

/-- The line that a run ends with at a byte that is no opcode. -/
def traceLine (machine : Machine) : String :=
  machine.trace.text ++ "\n"

/-- `Ends machine sink final out halt` says how the run of a machine ends that makes no further
    successful step. -/
inductive Ends (machine : Machine) (sink : Sink) : Machine → Sink → Halt → Prop
  /-- The machine does not run. -/
  | halted : machine.running = false → Ends machine sink machine sink .halted
  /-- The machine is at a byte that is no opcode, which the sink is told. -/
  | unknown {opcode : UInt8} :
      machine.running = true → machine.fault? = some (.unknownOpcode opcode) →
      Ends machine sink { machine.fetched with running := false } (sink.offer machine.traceLine)
        (if sink.admits machine.traceLine then .unknownOpcode opcode machine.pc.toNat
          else .fault (.output sink.refusal.reason))
  /-- The next step fails for another reason. -/
  | failed {out : Sink} {fault : Fault} :
      machine.running = true → machine.step sink = ⟨machine.fetched, out, .error fault⟩ →
      (∀ opcode, fault ≠ .unknownOpcode opcode) →
      Ends machine sink { machine.fetched with running := false } out (.fault fault)

variable {final after : Machine} {last : Sink} {fault : Fault} {halt : Halt}

theorem ends_of_step_error (hrunning : machine.running = true)
    (hstep : machine.step sink = ⟨after, out, .error fault⟩)
    (hstop : after.stop out fault = ⟨final, last, some halt⟩) :
    Ends machine sink final last halt := by
  obtain ⟨rfl, hcause⟩ := reply_of_step_error hstep
  cases fault
  case unknownOpcode opcode =>
    rcases hcause with ⟨hfault, rfl⟩ | ⟨-, houtput⟩
    · cases hstop
      exact .unknown hrunning hfault
    · cases houtput
  all_goals
    cases hstop
    exact .failed hrunning hstep (by simp)

theorem runFor_of_ends (hends : Ends machine sink final last halt) (limit : Nat) :
    machine.runFor (limit + 1) sink = ⟨final, last, some halt⟩ := by
  cases hends with
  | halted hstill => exact runFor_of_not_running hstill (limit + 1) sink
  | unknown hrunning hfault => exact runFor_succ_of_error hrunning (step_of_fault hfault sink) limit
  | failed hrunning hstep hknown =>
    rw [runFor_succ_of_error hrunning hstep, stop_of_known hknown]

/-- A run that ends within its limit is a history with an end. -/
theorem exists_steps_of_runFor {limit : Nat}
    (h : machine.runFor limit sink = ⟨final, last, some halt⟩) :
    ∃ history later rest, Steps machine sink history later rest ∧
      (∀ transition ∈ history, transition.before.running = true) ∧
      Ends later rest final last halt := by
  cases hrunning : machine.running with
  | false =>
    rw [runFor_of_not_running hrunning] at h
    cases h
    exact ⟨[], machine, sink, .refl, by simp, .halted hrunning⟩
  | true =>
    induction limit generalizing machine sink with
    | zero =>
      -- Without a step to make, a running machine has not come to its end.
      simp only [runFor, hrunning, if_true] at h
      cases h
    | succ limit ih =>
      rcases hstep : machine.step sink with ⟨next, between, fault | ⟨⟩⟩
      · rw [runFor_succ_of_error hrunning hstep] at h
        exact ⟨[], machine, sink, .refl, by simp, ends_of_step_error hrunning hstep h⟩
      · rw [runFor_succ_of_ok hrunning hstep] at h
        cases hnext : next.running with
        | false =>
          rw [runFor_of_not_running hnext] at h
          cases h
          exact ⟨[⟨machine, final⟩], final, last, Steps.refl.cons hstep,
            by simpa using hrunning, .halted hnext⟩
        | true =>
          obtain ⟨history, later, rest, hsteps, hbefore, hends⟩ := ih h hnext
          exact ⟨_, later, rest, hsteps.cons hstep,
            List.forall_mem_cons.mpr ⟨hrunning, hbefore⟩, hends⟩

/-! ## Runs that return -/

/-- The run of the machine into the sink returns: it leaves the machine `final` and the sink
    `out`, and ends for the reason `halt`. -/
def Returns (machine : Machine) (sink : Sink) (final : Machine) (out : Sink) (halt : Halt) :
    Prop :=
  ∃ limit, machine.runFor limit sink = ⟨final, out, some halt⟩

theorem returns_of_halt {limit : Nat} (h : (machine.runFor limit sink).halt = some halt) :
    Returns machine sink (machine.runFor limit sink).machine (machine.runFor limit sink).sink
      halt := by
  refine ⟨limit, ?_⟩
  rw [← h]

/-- **A run returns exactly if its steps come to an end**: running machines have made
    successful steps up to one that has halted or whose next step fails. -/
theorem returns_iff :
    Returns machine sink final last halt ↔
      ∃ history later rest, Steps machine sink history later rest ∧
        (∀ transition ∈ history, transition.before.running = true) ∧
        Ends later rest final last halt := by
  constructor
  · rintro ⟨limit, h⟩
    exact exists_steps_of_runFor h
  · rintro ⟨history, later, rest, hsteps, hrunning, hends⟩
    refine ⟨history.length + (0 + 1), ?_⟩
    rw [runFor_of_steps hsteps hrunning, runFor_of_ends hends]

end ByteMachine.Machine
