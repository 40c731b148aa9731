import ByteMachine.Log.Standard
import ByteMachine.Proofs.CheckedTexts
import ByteMachine.Proofs.LogFile
import ByteMachine.Proofs.Runs
import ByteMachine.Session.Run
/-!
# Runs that tell what they do

While the machine runs, events are noted: at the moment they happen, and in the same world that
the program prints into and that the files are in. The log library says whether an event is noted,
and its message is only worked out if it is. A message that cannot be worked out would break the
session off.

Nothing is said about the log library here but that it does not break the session off itself. What
it lets pass, how it lays out a line, and how much of the log file it writes at a time makes no
difference to the run: the run never breaks off, and it does what the machine does without notes.

## Main definitions

- `Log.Library.Reliable`: the library does not break a session off.
- `World.Becomes`: the world is the same but for the log and for what has been printed.

## Main statements

- `World.exists_note`: an event can always be noted.
- `Session.exists_step`: a step that tells what it does.
- `Session.exists_run`: a run that tells what it does.
-/

namespace ByteMachine

/-! ## Libraries that can be relied on -/

namespace Log

/-- The library does not break a session off when it is asked about events, when it lays out a
    line, or when it writes to a log file that is open. -/
structure Library.Reliable (library : Library) : Prop where
  mayAdmit : ∀ filter level target, ∃ wanted, library.mayAdmit filter level target = some wanted
  admits : ∀ filter level target, ∃ wanted, library.admits filter level target = some wanted
  line : ∀ event, ∃ line, library.line event = some line
  take : ∀ line queue, ∃ taken, library.take line queue = some taken
  work : ∀ queue, ∃ text rest, library.work queue = some (text, rest)
  finish : ∀ queue, ∃ text, library.finish queue = some text

theorem standard_reliable : standard.Reliable where
  mayAdmit _ _ _ := ⟨_, rfl⟩
  admits _ _ _ := ⟨_, rfl⟩
  line _ := ⟨_, rfl⟩
  take _ _ := ⟨_, rfl⟩
  work _ := ⟨_, _, rfl⟩
  finish _ := ⟨_, rfl⟩

end Log

/-! ## Worlds that differ by the log -/

variable {library : Log.Library}

namespace World

variable {world between next : World library} {output later : Sink}

/-- From one world to the next nothing has changed but the log and standard error, save that the
    program prints to the given sink now. -/
structure Becomes (world : World library) (output : Sink) (next : World library) : Prop where
  output : next.output = output
  place : next.logPlace? = world.logPlace?
  files : ∀ base : Files, base.Besides world.logPlace? world.files →
    base.Besides world.logPlace? next.files

namespace Becomes

theorem refl (world : World library) : world.Becomes world.output world where
  output := rfl
  place := rfl
  files _ h := h

theorem trans (first : world.Becomes output between) (second : between.Becomes later next) :
    world.Becomes later next where
  output := second.output
  place := second.place.trans first.place
  files base h := by
    rw [← first.place]
    apply second.files base
    rw [first.place]
    exact first.files base h

/-- Two changes that have nothing to do with what is printed. -/
theorem trans_same (first : world.Becomes world.output between)
    (second : between.Becomes between.output next) : world.Becomes world.output next := by
  have h := first.trans second
  rwa [first.output] at h

/-- The log does not depend on what is printed. -/
theorem print (h : world.Becomes output between) (later : Sink) :
    world.Becomes later { between with output := later } where
  output := rfl
  place := h.place
  files := h.files

end Becomes

theorem demand_some {α : Type} (world : World library) (answer : α) :
    world.demand (some answer) = .ok answer :=
  rfl

theorem becomes_say (text : String) (world : World library) :
    world.Becomes world.output (world.say text) where
  output := rfl
  place := rfl
  files _ h := h

/-- The log file gets a text, and its writer is left with another queue. -/
theorem becomes_append {file : LogFile library} (hfile : world.logFile = some file) (text : String)
    (queue : library.Queue) :
    world.Becomes world.output {
      world with
      files := world.files.append file.place text
      logFile := some { file with queue } } where
  output := rfl
  place := by simp [logPlace?, hfile]
  files base h := by
    rw [logPlace?, hfile, Option.map_some] at h ⊢
    exact h.append text

/-! ## Noting -/

variable (hreliable : library.Reliable) (filter : library.Filter)
include hreliable

theorem exists_work (world : World library) :
    ∃ next, world.work = .ok next ∧ world.Becomes world.output next := by
  unfold work
  cases hfile : world.logFile with
  | none => exact ⟨world, rfl, .refl world⟩
  | some file =>
    obtain ⟨text, queue, hwork⟩ := hreliable.work file.queue
    exact ⟨_, by simp only [hwork, demand_some]; rfl, becomes_append hfile text queue⟩

theorem exists_record (line : String) (world : World library) :
    ∃ next, world.record line = .ok next ∧ world.Becomes world.output next := by
  unfold record
  cases hfile : world.logFile with
  | none => exact ⟨_, rfl, becomes_say line world⟩
  | some file =>
    obtain ⟨queue, htake⟩ := hreliable.take line file.queue
    -- The line waits first; then some of what waits may be written.
    have hwaits : world.Becomes world.output { world with logFile := some { file with queue } } :=
      ⟨rfl, by simp [logPlace?, hfile], fun _ h => h⟩
    obtain ⟨next, hwork, hnext⟩ :=
      exists_work hreliable { world with logFile := some { file with queue } }
    refine ⟨next, ?_, hwaits.trans_same hnext⟩
    simp only [htake, demand_some]
    exact hwork

/-- **An event can always be noted**, if its message is there. -/
theorem exists_note (level : Log.Level) (target : Log.Target) (message : Unit → Option String)
    {text : String} (hmessage : message () = some text) (world : World library) :
    ∃ next, world.note filter level target message = .ok next ∧
      world.Becomes world.output next := by
  obtain ⟨wanted, hadmits⟩ := hreliable.admits filter level target
  unfold note
  cases wanted with
  | false =>
    simp only [hadmits, demand_some]
    exact ⟨world, rfl, .refl world⟩
  | true =>
    obtain ⟨line, hline⟩ := hreliable.line ⟨level, target, text⟩
    obtain ⟨next, hrecord, hnext⟩ := exists_record hreliable line world
    refine ⟨next, ?_, hnext⟩
    simp only [hadmits, hmessage, demand_some, bind, Except.bind, hline]
    exact hrecord

theorem exists_noteEvent (event : Log.Event) (world : World library) :
    ∃ next, world.noteEvent filter event = .ok next ∧ world.Becomes world.output next :=
  exists_note hreliable filter event.level event.target (fun _ => some event.message) rfl world

theorem exists_noteAll (events : List Log.Event) (world : World library) :
    ∃ next, world.noteAll filter events = .ok next ∧ world.Becomes world.output next := by
  induction events generalizing world with
  | nil => exact ⟨world, rfl, .refl world⟩
  | cons event rest ih =>
    obtain ⟨between, hnote, hbetween⟩ := exists_noteEvent hreliable filter event world
    obtain ⟨next, hrest, hnext⟩ := ih between
    refine ⟨next, ?_, hbetween.trans_same hnext⟩
    rw [noteAll, List.foldlM_cons, hnote]
    exact hrest

/-- The log can always be closed. -/
theorem exists_close (world : World library) :
    ∃ next, world.close = .ok next ∧ world.Becomes world.output next := by
  unfold close
  cases hfile : world.logFile with
  | none => exact ⟨world, rfl, .refl world⟩
  | some file =>
    obtain ⟨text, hfinish⟩ := hreliable.finish file.queue
    exact ⟨_, by simp only [hfinish, demand_some]; rfl, becomes_append hfile text file.queue⟩

end World

/-! ## Runs -/

namespace Session

variable (hreliable : library.Reliable) (filter : library.Filter)
include hreliable

/-- **A step that tells what it does** is the step. -/
theorem exists_step (machine : Machine) (world : World library) :
    ∃ next, step filter machine world =
        .ok ((machine.step world.output).machine, (machine.step world.output).result, next) ∧
      world.Becomes (machine.step world.output).sink next := by
  unfold step Machine.step
  cases hfetch : machine.fetch with
  | error fault => exact ⟨world, rfl, .refl world⟩
  | ok opcode =>
    have hsame : Machine.decode { machine with ir := opcode } = machine.decode := rfl
    dsimp only
    rw [hsame]
    cases hdecode : machine.decode with
    | error fault => exact ⟨world, rfl, .refl world⟩
    | ok operation =>
      -- What has been decoded has a text, so the message is there whenever it is asked for.
      let message (_ : Unit) := operation.text?.map fun text =>
        Numeral.hex machine.pc.toNat ++ ": " ++ text
      have hmessage : message () =
          some (Numeral.hex machine.pc.toNat ++ ": " ++ operation.text) := by
        simp only [message, Operation.text?_of_decode hdecode, Option.map_some]
      obtain ⟨noted, hnote, hnoted⟩ :=
        World.exists_note hreliable filter .trace .processor message hmessage world
      dsimp only
      rw [hnote]
      dsimp only [bind, Except.bind]
      rw [hnoted.output]
      -- The operation is carried out after the note, into the sink that was there before it.
      generalize Machine.execute _ operation world.output = reply
      obtain ⟨after, sink, result⟩ := reply
      cases result with
      | ok address => exact ⟨_, rfl, hnoted.print sink⟩
      | error fault => exact ⟨_, rfl, hnoted.print sink⟩

/-- A machine that is stopped on a fault tells why. -/
theorem exists_stop (machine : Machine) (fault : Fault) (world : World library) :
    ∃ next, stop filter machine fault world =
        .ok ((machine.stop world.output fault).machine, (machine.stop world.output fault).halt,
          next) ∧
      world.Becomes (machine.stop world.output fault).sink next := by
  by_cases hunknown : ∃ opcode, fault = .unknownOpcode opcode
  · obtain ⟨opcode, rfl⟩ := hunknown
    obtain ⟨noted, hnote, hnoted⟩ :=
      World.exists_noteEvent hreliable filter (.unknownOpcode opcode machine.pc.toNat) world
    refine ⟨_, ?_, hnoted.print (world.output.offer (machine.trace.text ++ "\n"))⟩
    simp only [stop, hnote, bind, Except.bind, Machine.stop, hnoted.output, pure, Except.pure]
  · obtain ⟨noted, hnote, hnoted⟩ :=
      World.exists_noteEvent hreliable filter (.fault fault machine.pc.toNat) world
    have hknown : ∀ opcode, fault ≠ .unknownOpcode opcode := not_exists.mp hunknown
    rw [Machine.stop_of_known hknown]
    refine ⟨noted, ?_, hnoted⟩
    cases fault
    case unknownOpcode opcode => exact absurd rfl (hknown opcode)
    all_goals simp only [stop, hnote, bind, Except.bind, pure, Except.pure]

/-- A machine that does not run tells that it has halted. -/
theorem exists_halt (machine : Machine) (world : World library) :
    ∃ next, halt filter machine world = .ok (machine, some .halted, next) ∧
      world.Becomes world.output next := by
  obtain ⟨noted, hnote, hnoted⟩ :=
    World.exists_noteEvent hreliable filter (.halted machine.cycles) world
  refine ⟨noted, ?_, hnoted⟩
  rw [halt, hnote]
  rfl

/-- **A run that tells what it does** is the run. -/
theorem exists_run (limit : Nat) (machine : Machine) (world : World library) :
    ∃ next, run filter limit machine world =
        .ok ((machine.runFor limit world.output).machine,
          (machine.runFor limit world.output).halt, next) ∧
      world.Becomes (machine.runFor limit world.output).sink next := by
  induction limit generalizing machine world with
  | zero =>
    rw [run, Machine.runFor]
    cases machine.running with
    | true => exact ⟨world, rfl, .refl world⟩
    | false => exact exists_halt hreliable filter machine world
  | succ limit ih =>
    rw [run, Machine.runFor]
    cases machine.running with
    | false => exact exists_halt hreliable filter machine world
    | true =>
      obtain ⟨told, hstep, htold⟩ := exists_step hreliable filter machine world
      simp only [if_true, hstep, bind, Except.bind]
      generalize machine.step world.output = reply at htold ⊢
      obtain ⟨after, sink, result⟩ := reply
      have houtput : told.output = sink := htold.output
      cases result with
      | error fault =>
        obtain ⟨next, hstop, hnext⟩ := exists_stop hreliable filter after fault told
        rw [houtput] at hstop hnext
        exact ⟨next, hstop, htold.trans hnext⟩
      | ok done =>
        obtain ⟨next, hrun, hnext⟩ := ih after told
        rw [houtput] at hrun hnext
        exact ⟨next, hrun, htold.trans hnext⟩

end Session

end ByteMachine
