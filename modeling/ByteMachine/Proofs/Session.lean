import ByteMachine.Proofs.Limits
import ByteMachine.Proofs.Narration
import ByteMachine.Proofs.Source
import ByteMachine.Session
/-!
# What a session comes to

A session reads its program, runs it and saves the state, each with its own ways to fail. What
that comes to is stated stage by stage: which exit code, what has been printed, and what has
happened to the files.

All of that is said of sessions whose log can be set up: its filter can be read, its file can be
made if there is to be one, and that file is apart from the program and from the saved state. Then
the log makes no difference, whatever the library does with it. A session whose log cannot be set
up breaks off at the start.

## Main definitions

- `Opens`, `LogApart`: the log can be set up.
- `Concludes`: the session ends, and how.

## Main statements

- `perform_of_usage`, `perform_of_programError`, `perform_of_program`: what a session comes to
  within a limit on the steps of its run.
- `concludes_by_stage`: what a session comes to in every environment.
-/

namespace ByteMachine

namespace Program

variable {source : String} {e : LoadError}

/-- The only thing that is wrong with lines is a line that is no literal. -/
theorem malformed_of_readLines {number : Nat} {lines : List (List Char)}
    (h : readLines number lines = .error e) : ∃ line text, e = .malformedLiteral line text := by
  induction lines generalizing number with
  | nil => simp [readLines] at h
  | cons line rest ih =>
    by_cases hcode : code line = []
    · rw [readLines_of_code_eq_nil hcode] at h
      exact ih h
    · rw [readLines, if_neg hcode] at h
      cases hliteral : literal? (code line) with
      | none =>
        rw [hliteral] at h
        cases h
        exact ⟨number, String.ofList (code line), rfl⟩
      | some byte =>
        rw [hliteral] at h
        cases hrest : readLines (number + 1) rest with
        | ok bytes =>
          rw [hrest] at h
          cases h
        | error later =>
          -- The error of a later line is passed on as it is.
          rw [hrest] at h
          cases h
          exact ih hrest

/-- A text that is no program is never taken for a missing file. -/
theorem exitCode_of_parse_error (h : parse source = .error e) : e.exitCode = 3 := by
  unfold parse at h
  cases hlines : readLines 1 (Text.lines source.toList) with
  | error first =>
    rw [hlines] at h
    cases h
    obtain ⟨line, text, rfl⟩ := malformed_of_readLines hlines
    rfl
  | ok bytes =>
    -- Lines without a mistake can only be too many.
    rw [hlines] at h
    change ofBytes bytes = .error e at h
    by_cases hfits : bytes.length ≤ Memory.capacity
    · rw [ofBytes, dif_pos hfits] at h
      cases h
    · rw [ofBytes, dif_neg hfits] at h
      cases h
      rfl

end Program

/-- The text of a state is never empty. -/
theorem Snapshot.pretty_encode_ne_empty (machine : Machine) : (encode machine).pretty ≠ "" := by
  intro h
  have hlist := congrArg String.toList h
  rw [Json.pretty, String.toList_ofList, encode, Json.print] at hlist
  exact List.cons_ne_nil _ _ hlist

namespace Settings

variable {lookup : String → Option String} {target : String}

/-- The state is saved at the path that the environment gives, if that is more than blanks. -/
theorem statePath_eq_some_iff :
    (ofEnvironment lookup).statePath = some target ↔
      lookup stateVariable = some target ∧ Text.allBlank target = false := by
  simp [ofEnvironment, Option.filter_eq_some_iff]

end Settings

namespace Session

variable {library : Log.Library} {settings : Settings} {files after : Files} {log : Option Place}
  {path logPath source target text : String} {arguments : List String} {program : Program}
  {e : LoadError} {limit : Nat} {exit : Exit} {output : Sink} {world next : World library}

/-! ## The program -/

theorem programAt_of_text (h : files.readText path = .ok source) :
    programAt files path = Program.parse source := by
  simp [programAt, sourceAt, h, bind, Except.bind]

theorem programAt_of_notFound (h : files.readText path = .error .notFound) :
    programAt files path = .error (.fileNotFound path) := by
  simp [programAt, sourceAt, h, bind, Except.bind]

theorem programAt_of_readError {reason : FileError} (h : files.readText path = .error reason)
    (hne : reason ≠ .notFound) :
    programAt files path = .error (.unreadable path reason.reason) := by
  -- The one reason that is told apart is left out; all others are handed on.
  cases reason with
  | notFound => exact absurd rfl hne
  | notDirectory | isDirectory | nameTooLong | notText =>
    simp [programAt, sourceAt, h, bind, Except.bind]

/-- The same program is found beside the log. -/
theorem programAt_eq_of_besides {other : Files} (h : files.Besides log other)
    (havoid : Files.Avoids log files path) : programAt other path = programAt files path := by
  unfold programAt sourceAt
  rw [h.readText_eq havoid]

/-! ## The saved state -/

/-- The files after the state of the machine has been saved at the path, if there is one and the
    state can be saved there. -/
def savedFiles (statePath : Option String) (machine : Machine) (files : Files) : Files :=
  match statePath with
  | none => files
  | some path =>
    match files.write path (Snapshot.encode machine).pretty with
    | .ok after => after
    | .error _ => files

theorem savedFiles_of_keeps (hkeeps : files.Keeps target) (machine : Machine) :
    ∃ place, files.resolveNew target = .ok place ∧
      savedFiles (some target) machine files =
        files.put place (.text (Snapshot.encode machine).pretty) := by
  obtain ⟨place, hplace, hwrite⟩ := Files.write_of_keeps hkeeps (Snapshot.encode machine).pretty
  refine ⟨place, hplace, ?_⟩
  simp only [savedFiles, hwrite]

/-- Where no state is asked for, or none can be kept, all files stay as they are. -/
theorem savedFiles_of_not_keeps {statePath : Option String}
    (h : ∀ target, statePath = some target → ¬ files.Keeps target) (machine : Machine) :
    savedFiles statePath machine files = files := by
  unfold savedFiles
  cases statePath with
  | none => rfl
  | some target =>
    cases hwrite : files.write target (Snapshot.encode machine).pretty with
    | error reason => simp only [hwrite]
    | ok after =>
      -- The null device has taken the text.
      simp only [hwrite]
      exact Files.write_of_not_keeps (h target rfl) _ hwrite

/-- A path to the state that keeps away from the log still does so when the state is saved. -/
theorem avoids_savedFiles (havoid : Files.Avoids log files target) (machine : Machine) :
    Files.Avoids log (savedFiles (some target) machine files) target := by
  by_cases hkeeps : files.Keeps target
  · obtain ⟨place, hplace, hsaved⟩ := savedFiles_of_keeps hkeeps machine
    rw [hsaved]
    exact havoid.put hplace _
  · rwa [savedFiles_of_not_keeps (by rintro _ ⟨⟩; exact hkeeps)]

/-! ## After a run -/

/-- What a session comes to after a run. -/
def exitAfter : Option Halt → Exit
  | none => .unfinished
  | some halt => .code halt.exitCode

theorem exitAfter_ne_brokenOff (halt : Option Halt) : exitAfter halt ≠ .brokenOff := by
  cases halt <;> exact nofun

theorem exitAfter_ne_unfinished_iff {halt : Option Halt} :
    exitAfter halt ≠ .unfinished ↔ ∃ reason, halt = some reason := by
  cases halt <;> simp [exitAfter]

/-- The files after a run: the state is saved once the run has ended. -/
def filesAfter (statePath : Option String) (files : Files) (run : Run) : Files :=
  match run.halt with
  | none => files
  | some _ => savedFiles statePath run.machine files

theorem avoids_filesAfter (havoid : Files.Avoids log files target) (run : Run) :
    Files.Avoids log (filesAfter (some target) files run) target := by
  unfold filesAfter
  cases run.halt with
  | none => exact havoid
  | some halt => exact avoids_savedFiles havoid run.machine

/-! ## Logs that can be set up -/

/-- The log can be opened: there is a filter, and if the log goes to a file, the library makes the
    file, at the given place, and no other file is touched by that. -/
structure Opens (library : Log.Library) (settings : Settings) (logPath : String) (files : Files)
    (log : Option Place) : Prop where
  filter : ∃ answer, library.readFilter settings.logFilter = some answer ∧
    (answer = none → ∃ filter, library.readLeniently "warn" = some filter)
  place :
    match settings.logDestination with
    | .standardError => log = none
    | .file => ∃ place made queue, library.create logPath files = some (place, made, queue) ∧
        log = some place ∧ files.Besides log made

/-- The log is apart from the program and from the saved state: no path to them leads to it or
    through it. -/
structure LogApart (log : Option Place) (settings : Settings) (arguments : List String)
    (files : Files) : Prop where
  program : ∀ path, arguments = [path] → Files.Avoids log files path
  state : ∀ target, settings.statePath = some target → Files.Avoids log files target

theorem logApart_of_avoids (hprogram : Files.Avoids log files path)
    (hpath : settings.statePath = some target) (hstate : Files.Avoids log files target) :
    LogApart log settings [path] files where
  program := by
    rintro _ ⟨⟩
    exact hprogram
  state := by
    rw [hpath]
    rintro _ ⟨⟩
    exact hstate

/-- What a session sees of the world: these files, but for the log at the place, and the program
    prints to this sink. -/
structure Sees (log : Option Place) (files : Files) (output : Sink) (world : World library) :
    Prop where
  place : world.logPlace? = log
  files : files.Besides log world.files
  output : world.output = output

/-- Changes of the log are not seen. -/
theorem Sees.becomes {later : Sink} (h : Sees log files output world)
    (hbecomes : world.Becomes later next) : Sees log files later next where
  place := hbecomes.place.trans h.place
  files := by
    rw [← h.place]
    apply hbecomes.files
    rw [h.place]
    exact h.files
  output := hbecomes.output

theorem Sees.say (h : Sees log files output world) (text : String) :
    Sees log files output (world.say text) :=
  ⟨h.place, h.files, h.output⟩

theorem exists_filterOf (h : Opens library settings logPath files log) (world : World library) :
    ∃ filter, filterOf settings.logFilter world = .ok filter := by
  obtain ⟨answer, hread, hlenient⟩ := h.filter
  unfold filterOf
  cases answer with
  | some filter =>
    refine ⟨filter, ?_⟩
    rw [hread]
    rfl
  | none =>
    obtain ⟨filter, hwarn⟩ := hlenient rfl
    refine ⟨filter, ?_⟩
    rw [hread, hwarn]
    rfl

/-- **The log is opened** beside all other files. -/
theorem exists_openLog (h : Opens library settings logPath files log) :
    ∃ filter, ∃ world : World library, openLog settings logPath { files } = .ok (filter, world) ∧
      Sees log files .unlimited world := by
  obtain ⟨filter, hfilter⟩ := exists_filterOf h { files }
  have hplace := h.place
  unfold openLog
  rw [hfilter]
  cases hdestination : settings.logDestination with
  | standardError =>
    rw [hdestination] at hplace
    subst hplace
    exact ⟨filter, _, rfl, rfl, .of_none files, rfl⟩
  | file =>
    rw [hdestination] at hplace
    obtain ⟨place, made, queue, hcreate, rfl, hmade⟩ := hplace
    let opened : World library := {
      files := made
      diagnostics := "" ++ announcement settings logPath
      logFile := some ⟨place, queue⟩ }
    refine ⟨filter, opened, ?_, rfl, hmade, rfl⟩
    simp only [bind, Except.bind, World.say, hcreate, World.demand_some]
    rfl

theorem opens_standard_error (hread : (Log.Filter.read settings.logFilter).run ≠ none)
    (hdestination : settings.logDestination = .standardError) :
    Opens Log.standard settings logPath files none where
  filter := by
    obtain ⟨answer, hanswer⟩ := Option.ne_none_iff_exists'.mp hread
    exact ⟨answer, hanswer, fun _ => ⟨_, Log.Filter.readLeniently_warn⟩⟩
  place := by rw [hdestination]

/-- The standard library makes a log file wherever a file can be made. -/
theorem opens_standard_file {place : Place}
    (hread : (Log.Filter.read settings.logFilter).run ≠ none)
    (hdestination : settings.logDestination = .file)
    (hplace : files.resolveNew logPath = .ok place) :
    Opens Log.standard settings logPath files (some place) where
  filter := by
    obtain ⟨answer, hanswer⟩ := Option.ne_none_iff_exists'.mp hread
    exact ⟨answer, hanswer, fun _ => ⟨_, Log.Filter.readLeniently_warn⟩⟩
  place := by
    rw [hdestination]
    obtain ⟨parent, name, hleads, rfl⟩ := Files.leadsToFile_of_resolveNew hplace
    refine ⟨_, _, "", ?_, rfl, (Files.Besides.of_file hleads.free).append ""⟩
    simp only [Log.standard, hplace]

/-! ## Stages -/

section Stages

variable (hreliable : library.Reliable) (filter : library.Filter)
include hreliable

/-- The listing is made of texts that are always there. -/
theorem exists_list (program : Program) (world : World library) :
    ∃ next, list filter program world = .ok next ∧ world.Becomes world.output next := by
  obtain ⟨wanted, hwanted⟩ := hreliable.mayAdmit filter .debug .session
  unfold list
  rw [hwanted, program.disassemble?_eq]
  cases wanted with
  | false => exact ⟨world, rfl, .refl world⟩
  | true =>
    exact World.exists_noteAll hreliable filter (program.disassemble.map .listingLine) world

/-- **A program is always loaded**, and all that changes is the log. -/
theorem exists_load (path : String) (program : Program) (world : World library) :
    ∃ next, load filter path program world = .ok (.ok (.ofProgram program), next) ∧
      world.Becomes world.output next := by
  obtain ⟨read, hread, hworldRead⟩ :=
    World.exists_noteEvent hreliable filter (.programRead program path) world
  obtain ⟨listed, hlisted, hreadListed⟩ := exists_list hreliable filter program read
  obtain ⟨loaded, hloaded, hlistedLoaded⟩ := World.exists_noteEvent hreliable filter
    (.programLoaded program (Machine.ofProgram program).stackLimit) listed
  have hload : Machine.initial.tryLoad program = .ok (.ofProgram program) :=
    Machine.initial.tryLoad_eq program
  refine ⟨loaded, ?_, (hworldRead.trans_same hreadListed).trans_same hlistedLoaded⟩
  simp only [load, hread, hlisted, hload, hloaded, bind, Except.bind, pure, Except.pure]

/-- **The state is saved** as it would be without a log. -/
theorem exists_save (machine : Machine) (hsees : Sees log files output world)
    (havoid : ∀ target, settings.statePath = some target → Files.Avoids log files target) :
    ∃ next, save filter settings machine world = .ok next ∧
      Sees log (savedFiles settings.statePath machine files) output next := by
  unfold save savedFiles
  cases hpath : settings.statePath with
  | none => exact ⟨world, rfl, hsees⟩
  | some target =>
    obtain ⟨worked, hwork, hworked⟩ := World.exists_work hreliable world
    rw [hsees.output] at hworked
    have hbefore := hsees.becomes hworked
    dsimp only
    rw [hwork]
    dsimp only [bind, Except.bind]
    rcases hbefore.files.write (havoid target hpath) (Snapshot.encode machine).pretty with
      ⟨e, hwrite, hother⟩ | ⟨after, next, hwrite, hother, hafter⟩
    · obtain ⟨noted, hnote, hnoted⟩ :=
        World.exists_noteEvent hreliable filter (.stateNotWritten target e.reason) worked
      rw [hbefore.output] at hnoted
      rw [hwrite, hother]
      exact ⟨noted, hnote, hbefore.becomes hnoted⟩
    · rw [hwrite, hother]
      exact ⟨_, rfl, hbefore.place, hafter, hbefore.output⟩

/-- **A session with a program** does what the run does, and then saves the state. -/
theorem exists_carryOut (limit : Nat) (path : String) (program : Program)
    (hsees : Sees log files output world)
    (havoid : ∀ target, settings.statePath = some target → Files.Avoids log files target) :
    let run := (Machine.ofProgram program).runFor limit output
    ∃ next, carryOut filter limit settings path program world = .ok (exitAfter run.halt, next) ∧
      Sees log (filesAfter settings.statePath files run) run.sink next := by
  intro run
  obtain ⟨loaded, hload, hloaded⟩ := exists_load hreliable filter path program world
  rw [hsees.output] at hloaded
  have hbefore := hsees.becomes hloaded
  obtain ⟨ran, hrun, hran⟩ := exists_run hreliable filter limit (.ofProgram program) loaded
  rw [hbefore.output] at hrun hran
  have hafter := hbefore.becomes hran
  unfold carryOut exitAfter filesAfter
  simp only [hload, hrun, bind, Except.bind]
  cases hhalt : run.halt with
  | none => exact ⟨ran, rfl, hafter⟩
  | some halt =>
    obtain ⟨saved, hsave, hsaved⟩ := exists_save hreliable filter run.machine hafter havoid
    refine ⟨saved.say (complaintOf halt), ?_, hsaved.say _⟩
    dsimp only
    rw [hsave]
    rfl

end Stages

/-! ## Whole sessions -/

/-- The session has ended so, with these files but for the log, and this has been printed. -/
structure Ending.ComesTo (ending : Ending library) (exit : Exit) (log : Option Place)
    (files : Files) (output : Sink) : Prop where
  exit : ending.exit = exit
  sees : Sees log files output ending.world

/-- The filter is read before anything is done. -/
theorem eq_of_filterOf_error (h : filterOf text world = .error next) : next = world := by
  unfold filterOf at h
  cases hread : library.readFilter text with
  | none =>
    rw [hread] at h
    cases h
    rfl
  | some answer =>
    rw [hread] at h
    cases answer with
    | some filter => cases h
    | none =>
      cases hlenient : library.readLeniently "warn" with
      | none =>
        rw [hlenient] at h
        cases h
        rfl
      | some filter =>
        rw [hlenient] at h
        cases h

/-- A log that cannot be opened, because of its filter or because of its file. -/
theorem exists_openLog_error (h : library.readFilter settings.logFilter = none ∨
      settings.logDestination = .file ∧ library.create logPath files = none) :
    ∃ world : World library, openLog settings logPath { files } = .error world ∧
      world.files = files ∧ world.output = .unlimited := by
  unfold openLog
  cases hfilter : filterOf settings.logFilter ({ files } : World library) with
  | error world =>
    rw [eq_of_filterOf_error hfilter]
    exact ⟨_, rfl, rfl, rfl⟩
  | ok filter =>
    rcases h with hread | ⟨hdestination, hcreate⟩
    · rw [filterOf, hread] at hfilter
      cases hfilter
    · rw [hdestination]
      simp only [bind, Except.bind, World.say, hcreate, World.demand]
      exact ⟨_, rfl, rfl, rfl⟩

/-- **A session whose log cannot be opened breaks off.** Nothing has been printed then, and no file
    has been touched. -/
theorem perform_of_not_opened (h : library.readFilter settings.logFilter = none ∨
      settings.logDestination = .file ∧ library.create logPath files = none)
    (limit : Nat) (arguments : List String) :
    let ending := perform library limit settings logPath arguments files
    ending.exit = .brokenOff ∧ ending.world.files = files ∧ ending.world.output = .unlimited := by
  obtain ⟨world, hopen, hsame⟩ := exists_openLog_error h
  simpa only [perform, attempt, hopen, bind, Except.bind, true_and] using hsame

/-- A session whose log is opened comes to what is done then. -/
theorem perform_of_act (hreliable : library.Reliable)
    (hopens : Opens library settings logPath files log)
    (hact : ∀ filter, ∀ world : World library, Sees log files .unlimited world →
      ∃ next, act filter limit settings arguments world = .ok (exit, next) ∧
        Sees log after output next) :
    (perform library limit settings logPath arguments files).ComesTo exit log after output := by
  obtain ⟨filter, opened, hopen, hopened⟩ := exists_openLog hopens
  obtain ⟨next, hact, hnext⟩ := hact filter opened hopened
  obtain ⟨closed, hclose, hclosed⟩ := World.exists_close hreliable next
  rw [hnext.output] at hclosed
  have hperform : perform library limit settings logPath arguments files =
      { exit, world := closed } := by
    simp only [perform, attempt, hopen, hact, hclose, bind, Except.bind, pure, Except.pure]
  rw [hperform]
  exact ⟨rfl, hnext.becomes hclosed⟩

section Perform

variable (hreliable : library.Reliable) (hopens : Opens library settings logPath files log)
  (hapart : LogApart log settings arguments files)
include hreliable hopens

/-- A session that was called in the wrong way looks at no file. -/
theorem perform_of_usage (h : ∀ path, arguments ≠ [path]) (limit : Nat) :
    (perform library limit settings logPath arguments files).ComesTo (.code 1) log files
      .unlimited := by
  apply perform_of_act hreliable hopens
  intro filter world hsees
  refine ⟨_, ?_, hsees.say usage⟩
  match arguments with
  | [] => rfl
  | [path] => exact absurd rfl (h path)
  | _ :: _ :: _ => rfl

include hapart

/-- **A session without a program** prints nothing and leaves all files as they are. -/
theorem perform_of_programError (harguments : arguments = [path])
    (h : programAt files path = .error e) (limit : Nat) :
    (perform library limit settings logPath arguments files).ComesTo (.code e.exitCode) log files
      .unlimited := by
  apply perform_of_act hreliable hopens
  intro filter world hsees
  refine ⟨_, ?_, hsees.say (e.message ++ "\n")⟩
  subst harguments
  rw [act, programAt_eq_of_besides hsees.files (hapart.program path rfl), h]

/-- **A session with a program** comes to what its run comes to. -/
theorem perform_of_program (harguments : arguments = [path])
    (h : programAt files path = .ok program) (limit : Nat) :
    let run := (Machine.ofProgram program).runFor limit .unlimited
    (perform library limit settings logPath arguments files).ComesTo (exitAfter run.halt) log
      (filesAfter settings.statePath files run) run.sink := by
  apply perform_of_act hreliable hopens
  intro filter world hsees
  obtain ⟨next, hcarry, hnext⟩ :=
    exists_carryOut hreliable filter limit path program hsees hapart.state
  refine ⟨next, ?_, hnext⟩
  subst harguments
  rw [act, programAt_eq_of_besides hsees.files (hapart.program path rfl), h]
  exact hcarry

end Perform

/-! ## How sessions conclude -/

/-- The session ends, and whenever it does, it ends with the exit code, with the output and with
    such files. -/
structure Concludes (library : Log.Library) (settings : Settings) (logPath : String)
    (arguments : List String) (files : Files) (exitCode : UInt8) (output : String)
    (such : Files → Prop) : Prop where
  ends : ∃ limit, (perform library limit settings logPath arguments files).exit ≠ .unfinished
  same : ∀ limit,
    let ending := perform library limit settings logPath arguments files
    ending.exit ≠ .unfinished →
      ending.exit = .code exitCode ∧ ending.world.output.written = output ∧
        such ending.world.files

/-- A session that comes to the same within every limit. -/
theorem concludes_of_comesTo {exitCode : UInt8} {such : Files → Prop}
    (h : ∀ limit, (perform library limit settings logPath arguments files).ComesTo
      (.code exitCode) log after output)
    (hsuch : ∀ last, after.Besides log last → such last) :
    Concludes library settings logPath arguments files exitCode output.written such where
  ends := by
    refine ⟨0, ?_⟩
    rw [(h 0).exit]
    exact nofun
  same limit _ := by
    obtain ⟨hexit, hsees⟩ := h limit
    exact ⟨hexit, by rw [hsees.output], hsuch _ hsees.files⟩

section Perform

variable (hreliable : library.Reliable) (hopens : Opens library settings logPath files log)
  (hapart : LogApart log settings arguments files)
include hreliable hopens hapart

theorem concludes_of_programError (harguments : arguments = [path])
    (h : programAt files path = .error e) :
    Concludes library settings logPath arguments files e.exitCode "" (files.Besides log) :=
  concludes_of_comesTo (perform_of_programError hreliable hopens hapart harguments h)
    fun _ hlast => hlast

/-- A session with a program ends exactly if the run of the program does. -/
theorem ends_iff_run (harguments : arguments = [path]) (h : programAt files path = .ok program) :
    (∃ limit, (perform library limit settings logPath arguments files).exit ≠ .unfinished) ↔
      ((Machine.ofProgram program).run .unlimited).Dom := by
  rw [Machine.dom_run_iff]
  apply exists_congr
  intro limit
  rw [(perform_of_program hreliable hopens hapart harguments h limit).exit]
  exact exitAfter_ne_unfinished_iff

/-- **A session with a program** prints what the run prints and ends with the exit code for its
    halt; the files differ by what has been saved. -/
theorem concludes_of_run {ended : Run} {halt : Halt} {such : Files → Prop}
    (harguments : arguments = [path]) (h : programAt files path = .ok program)
    (hrun : ended ∈ (Machine.ofProgram program).run .unlimited) (hhalt : ended.halt = some halt)
    (hsuch : ∀ last, (savedFiles settings.statePath ended.machine files).Besides log last → such last) :
    Concludes library settings logPath arguments files halt.exitCode ended.sink.written such where
  ends := (ends_iff_run hreliable hopens hapart harguments h).mpr (Part.dom_iff_mem.mpr ⟨_, hrun⟩)
  same limit hends := by
    obtain ⟨hexit, hsees⟩ := perform_of_program hreliable hopens hapart harguments h limit
    rw [hexit] at hends
    obtain ⟨other, hother⟩ := exitAfter_ne_unfinished_iff.mp hends
    -- The limit has let the run end, so it has ended as it does without a limit.
    rw [Machine.run_of_halt hother, Part.mem_some_iff] at hrun
    subst hrun
    rw [filesAfter, hhalt] at hsees
    refine ⟨?_, by rw [hsees.output], hsuch _ hsees.files⟩
    rw [hexit, hhalt]
    rfl

end Perform

/-! ## All stages -/

/-- The environment asks for the state of the machine at the path. -/
def AsksForState (lookup : String → Option String) (target : String) : Prop :=
  lookup Settings.stateVariable = some target ∧ Text.allBlank target = false

/-- All that has happened to the files is that the state of the machine was saved where it is
    asked for, if it can be kept there, and what has happened to the log. -/
structure SavesState (lookup : String → Option String) (log : Option Place) (files : Files)
    (machine : Machine) (after : Files) : Prop where
  saved : ∀ target, AsksForState lookup target → files.Keeps target →
    after.readText target = .ok (Snapshot.encode machine).pretty
  others : ∀ place, log ≠ some place →
    (∀ target, AsksForState lookup target → files.Keeps target →
      files.resolveNew target ≠ .ok place) →
    after.find? place = files.find? place

theorem savesState_of_besides {lookup : String → Option String} {machine : Machine}
    (hapart : LogApart log (.ofEnvironment lookup) arguments files)
    (h : (savedFiles (Settings.ofEnvironment lookup).statePath machine files).Besides log after) :
    SavesState lookup log files machine after where
  saved target hasks hkeeps := by
    have hpath := Settings.statePath_eq_some_iff.mpr hasks
    obtain ⟨place, hplace, hsaved⟩ := savedFiles_of_keeps hkeeps machine
    rw [hpath] at h
    rw [h.readText_eq (avoids_savedFiles (hapart.state target hpath) machine), hsaved,
      Files.readText_put hplace]
  others place hlog hnot := by
    rw [h.find?_eq place hlog]
    by_cases hkeeps : ∃ target, AsksForState lookup target ∧ files.Keeps target
    · obtain ⟨target, hasks, hkeeps⟩ := hkeeps
      obtain ⟨saved, hplace, hsaved⟩ := savedFiles_of_keeps hkeeps machine
      have hne : place ≠ saved := by
        rintro rfl
        exact hnot target hasks hkeeps hplace
      rw [Settings.statePath_eq_some_iff.mpr hasks, hsaved, Files.find?_put_of_ne files _ hne]
    · rw [savedFiles_of_not_keeps]
      intro target hpath hkept
      exact hkeeps ⟨target, Settings.statePath_eq_some_iff.mp hpath, hkept⟩

/-- **What a session comes to, stage by stage**, in every environment in which the log can be set
    up. It takes exactly one argument, a path. A file that is not there, one that cannot be read
    for another reason, and a text that is no program each end the session, with nothing printed
    and no file touched. A program is always loaded; the session then ends if the run of the
    machine does, and prints what the run prints. Only a fault is a failure. The state that the
    run has left is saved wherever it is asked for and can be kept, after a fault as well, and
    where it cannot, the exit code and the output are the same. -/
theorem concludes_by_stage {library : Log.Library} (hreliable : library.Reliable)
    (lookup : String → Option String) (arguments : List String) (files : Files)
    {logPath : String} {log : Option Place}
    (hopens : Opens library (.ofEnvironment lookup) logPath files log)
    (hapart : LogApart log (.ofEnvironment lookup) arguments files) :
    let concludes := Concludes library (.ofEnvironment lookup) logPath arguments files
    ((∀ path, arguments ≠ [path]) → concludes 1 "" (files.Besides log)) ∧
    ∀ path, arguments = [path] →
      (files.readText path = .error .notFound → concludes 2 "" (files.Besides log)) ∧
      (∀ reason, files.readText path = .error reason → reason ≠ .notFound →
        concludes 3 "" (files.Besides log)) ∧
      ∀ source, files.readText path = .ok source →
        (∀ e, Program.parse source = .error e → concludes 3 "" (files.Besides log)) ∧
        ∀ program, Program.parse source = .ok program →
          ∃ machine, Machine.initial.tryLoad program = .ok machine ∧
            ((∃ limit, (perform library limit (.ofEnvironment lookup) logPath arguments
                files).exit ≠ .unfinished) ↔ (machine.run .unlimited).Dom) ∧
            ∀ ended ∈ machine.run .unlimited,
              ∃ halt, ended.halt = some halt ∧
                concludes
                  (match halt with
                    | .halted => 0
                    | .unknownOpcode _ _ => 0
                    | .fault _ => 4)
                  ended.sink.written (SavesState lookup log files ended.machine) := by
  intro concludes
  refine ⟨?usage, ?_⟩
  case usage =>
    intro h
    exact concludes_of_comesTo (perform_of_usage hreliable hopens h) fun _ hlast => hlast
  intro path harguments
  refine ⟨?notFound, ?unreadable, ?text⟩
  case notFound =>
    intro hread
    exact concludes_of_programError hreliable hopens hapart harguments
      (programAt_of_notFound hread)
  case unreadable =>
    intro reason hread hne
    exact concludes_of_programError hreliable hopens hapart harguments
      (programAt_of_readError hread hne)
  case text =>
    intro source hread
    have hprogramAt := programAt_of_text hread
    constructor
    · intro e hparse
      rw [← Program.exitCode_of_parse_error hparse]
      exact concludes_of_programError hreliable hopens hapart harguments
        (hprogramAt.trans hparse)
    · intro program hparse
      have hprogram := hprogramAt.trans hparse
      refine ⟨.ofProgram program, Machine.initial.tryLoad_eq program,
        ends_iff_run hreliable hopens hapart harguments hprogram, ?_⟩
      intro ended hrun
      obtain ⟨limit, halt, -, hhalt⟩ := Machine.mem_run_iff.mp hrun
      obtain ⟨final, out, stopped⟩ := ended
      cases hhalt
      have hconcludes := concludes_of_run hreliable hopens hapart harguments hprogram hrun rfl
        fun _ hlast => savesState_of_besides hapart hlast
      refine ⟨halt, rfl, ?_⟩
      cases halt <;> exact hconcludes

/-- A program that prints a number and then returns from a call that was never made: the session
    fails, but the number has been printed and the state has been saved, beside a log file. -/
theorem concludes_by_stage_fault :
    let lookup := fun name =>
      if name = Settings.stateVariable then some "state"
      else if name = Settings.logFileVariable then some "1"
      else none
    let source := "10000010 # LDI R0,8\n00000000\n00001000\n01000111 # PRN R0\n00000000\n00010001"
    let files : Files := { entries := [(["program"], .text source), (["tmp"], .directory)] }
    let log : Option Place := some ["tmp", "ls8-0.log"]
    let program : Program := ⟨[0x82, 0x00, 0x08, 0x47, 0x00, 0x11], by decide⟩
    let ended := (Machine.ofProgram program).runFor 3 .unlimited
    Log.standard.Reliable ∧
    Opens Log.standard (.ofEnvironment lookup) "/tmp/ls8-0.log" files log ∧
    LogApart log (.ofEnvironment lookup) ["program"] files ∧
    Program.parse source = .ok program ∧ ended.halt = some (.fault .stackUnderflow) ∧
    AsksForState lookup "state" ∧ files.Keeps "state" ∧
    Concludes Log.standard (.ofEnvironment lookup) "/tmp/ls8-0.log" ["program"] files 4 "8\n"
      (SavesState lookup log files ended.machine) := by
  intro lookup source files log program ended
  have hreliable := Log.standard_reliable
  have hpath : (Settings.ofEnvironment lookup).statePath = some "state" := by decide +kernel
  have hopens : Opens Log.standard (.ofEnvironment lookup) "/tmp/ls8-0.log" files log :=
    opens_standard_file (by decide +kernel) (by decide +kernel) (by decide +kernel)
  have hapart : LogApart log (.ofEnvironment lookup) ["program"] files :=
    logApart_of_avoids (by decide +kernel) hpath (by decide +kernel)
  have hparse : Program.parse source = .ok program := by decide +kernel
  have hread : files.readText "program" = .ok source := by decide +kernel
  have hfault : ended.halt = some (.fault .stackUnderflow) := by decide +kernel
  have hwritten : ended.sink.written = "8\n" := by decide +kernel
  have hkeeps : files.Keeps "state" := ⟨["state"], by decide +kernel, by decide +kernel⟩
  obtain ⟨-, hstages⟩ := concludes_by_stage hreliable lookup ["program"] files hopens hapart
  obtain ⟨-, -, htext⟩ := hstages "program" rfl
  obtain ⟨machine, hload, -, hruns⟩ := (htext source hread).2 program hparse
  rw [Machine.tryLoad_eq, Except.ok.injEq] at hload
  subst hload
  have hrun : ended ∈ (Machine.ofProgram program).run .unlimited :=
    Machine.mem_run_iff.mpr ⟨3, _, rfl, hfault⟩
  obtain ⟨halt, hhalt, hconcludes⟩ := hruns ended hrun
  rw [hfault, Option.some.injEq] at hhalt
  subst hhalt
  rw [hwritten] at hconcludes
  exact ⟨hreliable, hopens, hapart, hparse, hfault, Settings.statePath_eq_some_iff.mp hpath,
    hkeeps, hconcludes⟩

/-- Not every environment is so: a log file that cannot be made breaks the session off, where it
    would have ended with an exit code. And a text can be written to the null device, but that
    keeps no state. -/
theorem not_concludes_by_stage :
    let program : Program := ⟨[0x01], by decide⟩
    let ended := (Machine.ofProgram program).runFor 1 .unlimited
    let state := (Snapshot.encode ended.machine).pretty
    let files : Files := {
      entries := [
        (["program"], .text "00000001"), (["dev"], .directory), (["dev", "null"], .null)] }
    let logging := Settings.ofEnvironment fun name =>
      if name = Settings.logFileVariable then some "1" else none
    let saving := Settings.ofEnvironment fun name =>
      if name = Settings.stateVariable then some "/dev/null" else none
    let ending := perform Log.standard 1 saving "" ["program"] files
    (∀ limit arguments,
      (perform Log.standard limit logging "/tmp/ls8-0.log" arguments files).exit = .brokenOff) ∧
    Program.parse "00000001" = .ok program ∧ ended.halt = some .halted ∧
    ending.exit = .code 0 ∧ files.write "/dev/null" state = .ok files ∧
    ending.world.files.readText "/dev/null" ≠ .ok state := by
  intro program ended state files logging saving ending
  refine ⟨?_, by decide +kernel, by decide +kernel, by decide +kernel, ?_, ?_⟩
  · intro limit arguments
    have hdestination : logging.logDestination = .file := by decide +kernel
    have hplace : files.resolveNew "/tmp/ls8-0.log" = .error .notFound := by decide +kernel
    have hcreate : Log.standard.create "/tmp/ls8-0.log" files = none := by
      simp only [Log.standard, hplace]
    exact (perform_of_not_opened (.inr ⟨hdestination, hcreate⟩) limit arguments).1
  · have hplace : files.resolveNew "/dev/null" = .ok ["dev", "null"] := by decide +kernel
    rw [Files.write_of_resolveNew hplace, if_pos (by decide +kernel)]
  · have hempty : ending.world.files.readText "/dev/null" = .ok "" := by decide +kernel
    rw [hempty, ne_eq, Except.ok.injEq]
    exact (Snapshot.pretty_encode_ne_empty ended.machine).symm

end Session

end ByteMachine
