import ByteMachine.Proofs.Variants
/-!
# Memory that is not read

Two runs side by side, on machines whose memories differ in some cells. As long as the first
run reads none of these cells before it has written it, the second run does the same: it
makes the same steps with the same output, and a cell that has been written holds the same
byte in both memories from then on. This holds also where the program writes into its own
code, as the bytes of an instruction are cells that a step reads like any other.

## Main statements

- `Twin.step`: one step, on a machine and its twin.
- `unread_memory_is_irrelevant`: histories of any length.
-/

namespace ByteMachine

/-- The cells of a set that no step of a history has written. -/
def StillHidden (hidden : UInt8 → Prop) (history : List Transition) (address : UInt8) : Prop :=
  hidden address ∧ ∀ transition ∈ history, transition.writes? ≠ some address

instance {hidden : UInt8 → Prop} [DecidablePred hidden] (history : List Transition) :
    DecidablePred (StillHidden hidden history) :=
  fun address => inferInstanceAs (Decidable (hidden address ∧ _))

theorem stillHidden_nil (hidden : UInt8 → Prop) : StillHidden hidden [] = hidden := by
  funext address
  simp [StillHidden]

/-- A cell stays hidden in a step unless the step writes it. -/
theorem stillHidden_append_singleton (hidden : UInt8 → Prop) (history : List Transition)
    (transition : Transition) :
    StillHidden hidden (history ++ [transition]) = fun address =>
      StillHidden hidden history address ∧ transition.writes? ≠ some address := by
  funext address
  unfold StillHidden
  rw [List.forall_mem_append, List.forall_mem_singleton, and_assoc]

namespace Machine

/-- Two machines that are equal but for some hidden cells of memory. -/
structure Twin (hidden : UInt8 → Prop) (machine other : Machine) : Prop where
  fields : other = { machine with memory := other.memory }
  cells : ∀ address, ¬ hidden address → other.memory.cell address = machine.memory.cell address

variable {hidden : UInt8 → Prop} {machine other next later : Machine} {sink out rest : Sink}
  {history : List Transition}

/-- A step that reads no hidden cell is the same on the twin, and uncovers the cell that it
    writes. -/
theorem Twin.step (htwin : Twin hidden machine other)
    (hstep : machine.step sink = ⟨next, out, .ok ()⟩)
    (hreads : ∀ address ∈ Transition.reads ⟨machine, next⟩, ¬ hidden address) :
    ∃ twin, other.step sink = ⟨twin, out, .ok ()⟩ ∧
      Transition.output ⟨other, twin⟩ = Transition.output ⟨machine, next⟩ ∧
      Twin (fun address => hidden address ∧ Transition.writes? ⟨machine, next⟩ ≠ some address)
        next twin := by
  obtain ⟨hadmits, rfl⟩ := sink_of_step hstep
  have hcycles : next.cycles = machine.cycles + 1 := by
    obtain ⟨instruction, -, -, -, rfl⟩ := exists_executes_of_step hstep
    rfl
  have hvariant : other = machine.variant other.memory machine.ir machine.cycles := htwin.fields
  obtain ⟨memory, htwinStep, houtput, hcells⟩ := step_variant hstep
    (fun address hmem => htwin.cells address (hreads address hmem)) hadmits machine.ir
    machine.cycles
  rw [← hvariant] at htwinStep houtput
  refine ⟨_, htwinStep, houtput, ?_, ?_⟩
  · rw [← hcycles]
    rfl
  · intro address hknown
    apply hcells
    by_cases hhidden : hidden address
    · right
      by_contra hunwritten
      exact hknown ⟨hhidden, hunwritten⟩
    · left
      exact htwin.cells address hhidden

/-- **Memory that is not read does not matter.** Let two machines be equal but for the cells
    of a set, and let a history of the first one read none of these cells before it has
    written it. Then the second one makes as many steps into the same sink. After each of them
    the two machines are equal but for cells of the set that have not been written so far, and
    each step prints the same. -/
theorem unread_memory_is_irrelevant (htwin : Twin hidden machine other)
    (hsteps : Steps machine sink history later rest)
    (hunread : ∀ k (hk : k < history.length), ∀ address ∈ history[k].reads,
      ¬ StillHidden hidden (history.take k) address) :
    ∃ alongside twin, Steps other sink alongside twin rest ∧
      Twin (StillHidden hidden history) later twin ∧
      ∃ hlength : alongside.length = history.length,
        ∀ k (hk : k < history.length),
          alongside[k].output = history[k].output ∧
          Twin (StillHidden hidden (history.take (k + 1))) history[k].after
            alongside[k].after := by
  induction hsteps with
  | refl =>
    refine ⟨[], other, .refl, ?_, rfl, ?_⟩
    · rw [stillHidden_nil]
      exact htwin
    · intro k hk
      exact absurd hk (Nat.not_lt_zero k)
  | @snoc history later next rest out hsteps hstep ih =>
    have hbefore : ∀ k (hk : k < history.length), ∀ address ∈ history[k].reads,
        ¬ StillHidden hidden (history.take k) address := by
      intro k hk
      have hhere := hunread k (by rw [List.length_append]; omega)
      rwa [List.getElem_append_left hk, List.take_append_of_le_length (Nat.le_of_lt hk)] at hhere
    have hlast : ∀ address ∈ Transition.reads ⟨later, next⟩,
        ¬ StillHidden hidden history address := by
      have hhere := hunread history.length (by simp)
      rwa [List.getElem_concat_length rfl, List.take_left] at hhere
    obtain ⟨alongside, twin, halongside, htwinLater, hlength, heach⟩ := ih hbefore
    obtain ⟨twinNext, htwinStep, houtput, htwinNext⟩ := htwinLater.step hstep hlast
    rw [← stillHidden_append_singleton] at htwinNext
    refine ⟨alongside ++ [⟨twin, twinNext⟩], twinNext, halongside.snoc htwinStep, htwinNext,
      by simp [hlength], ?_⟩
    intro k hk
    rcases Nat.lt_or_ge k history.length with hearlier | hlate
    · have hother : k < alongside.length := by omega
      rw [List.getElem_append_left hearlier, List.getElem_append_left hother,
        List.take_append_of_le_length hearlier]
      exact heach k hearlier
    · -- The last step is the one that has just been made on both.
      have hlong : (history ++ [(⟨later, next⟩ : Transition)]).length = history.length + 1 := by
        simp
      obtain rfl : k = history.length := by omega
      rw [List.getElem_concat_length rfl, List.getElem_concat_length hlength.symm,
        List.take_of_length_le (Nat.le_of_eq hlong)]
      exact ⟨houtput, htwinNext⟩

/-- A cell that only one of two machines has a byte in is stored at before it is loaded, and so
    both load the same. -/
theorem unread_memory_is_irrelevant_stored :
    let start := ofProgram ⟨[0x82, 0, 0x80, 0x84, 0, 1, 0x83, 2, 0], by decide⟩
    let other : Machine := { start with memory := start.memory.setCell 0x80 7 }
    let pointed := (start.step .unlimited).machine
    let stored := (pointed.step .unlimited).machine
    let loaded := (stored.step .unlimited).machine
    let history : List Transition := [⟨start, pointed⟩, ⟨pointed, stored⟩, ⟨stored, loaded⟩]
    (Twin (· = 0x80) start other ∧ Steps start .unlimited history loaded .unlimited ∧
      ∀ k (hk : k < history.length), ∀ address ∈ history[k].reads,
        ¬ StillHidden (· = 0x80) (history.take k) address) ∧
    ∃ alongside twin, Steps other .unlimited alongside twin .unlimited ∧
      twin.registers = loaded.registers ∧
      twin.memory.cell 0x80 = loaded.memory.cell 0x80 := by
  intro start other pointed stored loaded history
  have hpoint : start.step .unlimited = ⟨pointed, .unlimited, .ok ()⟩ :=
    step_of_clear (by decide +kernel) (by decide +kernel)
  have hstore : pointed.step .unlimited = ⟨stored, .unlimited, .ok ()⟩ :=
    step_of_clear (by decide +kernel) (by decide +kernel)
  have hload : stored.step .unlimited = ⟨loaded, .unlimited, .ok ()⟩ :=
    step_of_clear (by decide +kernel) (by decide +kernel)
  have hsteps : Steps start .unlimited history loaded .unlimited :=
    ((Steps.refl.snoc hpoint).snoc hstore).snoc hload
  have htwin : Twin (· = 0x80) start other := by
    refine ⟨rfl, ?_⟩
    intro address hne
    show (start.memory.setCell 0x80 7).cell address = _
    rw [Memory.cell_setCell, if_neg (Ne.symm hne)]
  have hunread : ∀ k (hk : k < history.length), ∀ address ∈ history[k].reads,
      ¬ StillHidden (· = 0x80) (history.take k) address := by
    decide +kernel
  have hstored : ¬ StillHidden (· = 0x80) history 0x80 := by decide +kernel
  obtain ⟨alongside, twin, halongside, hend, -⟩ :=
    unread_memory_is_irrelevant htwin hsteps hunread
  refine ⟨⟨htwin, hsteps, hunread⟩, alongside, twin, halongside, ?_, hend.cells 0x80 hstored⟩
  rw [hend.fields]

end Machine

end ByteMachine
