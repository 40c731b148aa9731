import ByteMachine.Proofs.Session
/-!
# Logging changes nothing

Two environments that differ in what they say about the log only give the same exit code, the same
output and the same files. What can be told apart is standard error and the log files themselves.

For that, each of the two logs has to be one that can be set up, beside the program and the state.
Nothing else is said about the library: the two sessions may even use different ones, so that what
the filters let pass, what the lines look like and when they are written may be as different as can
be.

## Main statements

- `exists_common`: what a session comes to does not depend on its log.
- `logging_changes_nothing`: two environments that differ in what they say about the log.
-/

namespace ByteMachine.Session

variable {files : Files} {arguments : List String}

/-- **What a session comes to does not depend on its log**, if that can be set up. It does not
    depend on the settings either, but for the path of the state. -/
theorem exists_common (limit : Nat) (statePath : Option String) (arguments : List String)
    (files : Files) :
    ∃ exit after output, exit ≠ .brokenOff ∧
      ∀ {library : Log.Library} {settings : Settings} {logPath : String} {log : Option Place},
        library.Reliable → settings.statePath = statePath →
        Opens library settings logPath files log → LogApart log settings arguments files →
        (perform library limit settings logPath arguments files).ComesTo exit log after output ∧
          ∀ target, statePath = some target → Files.Avoids log after target := by
  by_cases hpath : ∃ path, arguments = [path]
  · obtain ⟨path, rfl⟩ := hpath
    cases hprogram : programAt files path with
    | error e =>
      refine ⟨.code e.exitCode, files, .unlimited, nofun, ?_⟩
      rintro library settings logPath log hreliable rfl hopens hapart
      exact ⟨perform_of_programError hreliable hopens hapart rfl hprogram limit, hapart.state⟩
    | ok program =>
      let run := (Machine.ofProgram program).runFor limit .unlimited
      refine ⟨exitAfter run.halt, filesAfter statePath files run, run.sink,
        exitAfter_ne_brokenOff run.halt, ?_⟩
      rintro library settings logPath log hreliable rfl hopens hapart
      refine ⟨perform_of_program hreliable hopens hapart rfl hprogram limit, ?_⟩
      intro target htarget
      rw [htarget]
      exact avoids_filesAfter (hapart.state target htarget) run
  · refine ⟨.code usageExitCode, files, .unlimited, nofun, ?_⟩
    rintro library settings logPath log hreliable rfl hopens hapart
    exact ⟨perform_of_usage hreliable hopens (not_exists.mp hpath) limit, hapart.state⟩

/-- All that is left of the settings without what they say about the log is the path for the
    state. -/
theorem statePath_congr {lookup other : String → Option String}
    (hsame : ∀ name, name ≠ Settings.filterVariable → name ≠ Settings.logFileVariable →
      other name = lookup name) :
    (Settings.ofEnvironment other).statePath = (Settings.ofEnvironment lookup).statePath := by
  have hstate := hsame Settings.stateVariable (by decide) (by decide)
  simp only [Settings.ofEnvironment, hstate]

/-- **Logging changes nothing.** Take two environments that differ in what they say about the log
    only, and in each of them a log that can be set up, by a library that may be any. Neither
    session breaks off, and they end with the same exit code, or both do not end within the limit.
    The same has been printed, there are the same files at all places where there is no log, and
    the same is read where the state is saved. -/
theorem logging_changes_nothing {lookup other : String → Option String}
    (hsame : ∀ name, name ≠ Settings.filterVariable → name ≠ Settings.logFileVariable →
      other name = lookup name)
    (limit : Nat) {arguments : List String} {files : Files} {library otherLibrary : Log.Library}
    {logPath otherPath : String} {log otherLog : Option Place}
    (hreliable : library.Reliable) (hotherReliable : otherLibrary.Reliable)
    (hopens : Opens library (.ofEnvironment lookup) logPath files log)
    (hotherOpens : Opens otherLibrary (.ofEnvironment other) otherPath files otherLog)
    (hapart : LogApart log (.ofEnvironment lookup) arguments files)
    (hotherApart : LogApart otherLog (.ofEnvironment other) arguments files) :
    let ending := perform library limit (.ofEnvironment lookup) logPath arguments files
    let changed := perform otherLibrary limit (.ofEnvironment other) otherPath arguments files
    ending.exit ≠ .brokenOff ∧ changed.exit = ending.exit ∧
    changed.world.output = ending.world.output ∧
    (∀ place, log ≠ some place → otherLog ≠ some place →
      changed.world.files.find? place = ending.world.files.find? place) ∧
    ∀ target, AsksForState lookup target →
      changed.world.files.readText target = ending.world.files.readText target := by
  intro ending changed
  obtain ⟨exit, after, output, hexit, hcommon⟩ :=
    exists_common limit (Settings.ofEnvironment lookup).statePath arguments files
  obtain ⟨hends, havoids⟩ := hcommon hreliable rfl hopens hapart
  obtain ⟨hchanges, hotherAvoids⟩ :=
    hcommon hotherReliable (statePath_congr hsame) hotherOpens hotherApart
  refine ⟨?_, ?_, ?_, ?_, ?_⟩
  · rwa [hends.exit]
  · rw [hchanges.exit, hends.exit]
  · rw [hchanges.sees.output, hends.sees.output]
  · intro place hlog hotherLog
    rw [hchanges.sees.files.find?_eq place hotherLog, hends.sees.files.find?_eq place hlog]
  · intro target hasks
    have hpath := Settings.statePath_eq_some_iff.mpr hasks
    rw [hchanges.sees.files.readText_eq (hotherAvoids target hpath),
      hends.sees.files.readText_eq (havoids target hpath)]

/-- A program that prints a number, first with nothing said about the log, and then with everything
    logged to a file. -/
theorem logging_changes_nothing_traced :
    let lookup := fun name => if name = Settings.stateVariable then some "state" else none
    let other := fun name =>
      if name = Settings.filterVariable then some "trace"
      else if name = Settings.logFileVariable then some "1"
      else lookup name
    let source := "10000010 # LDI R0,8\n00000000\n00001000\n01000111 # PRN R0\n00000000\n00000001"
    let files : Files := { entries := [(["program"], .text source), (["tmp"], .directory)] }
    let otherLog : Option Place := some ["tmp", "ls8-0.log"]
    let ending := perform Log.standard 3 (.ofEnvironment lookup) "" ["program"] files
    let changed :=
      perform Log.standard 3 (.ofEnvironment other) "/tmp/ls8-0.log" ["program"] files
    (∀ name, name ≠ Settings.filterVariable → name ≠ Settings.logFileVariable →
      other name = lookup name) ∧
    Log.standard.Reliable ∧
    Opens Log.standard (.ofEnvironment lookup) "" files none ∧
    Opens Log.standard (.ofEnvironment other) "/tmp/ls8-0.log" files otherLog ∧
    LogApart none (.ofEnvironment lookup) ["program"] files ∧
    LogApart otherLog (.ofEnvironment other) ["program"] files ∧
    ending.exit = .code 0 ∧ changed.exit = .code 0 ∧
    changed.world.output.written = "8\n" ∧
    changed.world.files.readText "state" = ending.world.files.readText "state" := by
  intro lookup other source files otherLog ending changed
  have hsame : ∀ name, name ≠ Settings.filterVariable → name ≠ Settings.logFileVariable →
      other name = lookup name := by
    intro name hfilter hfile
    simp only [other]
    rw [if_neg hfilter, if_neg hfile]
  have hreliable := Log.standard_reliable
  have hopens : Opens Log.standard (.ofEnvironment lookup) "" files none :=
    opens_standard_error (by decide +kernel) (by decide +kernel)
  have hotherOpens : Opens Log.standard (.ofEnvironment other) "/tmp/ls8-0.log" files otherLog :=
    opens_standard_file (by decide +kernel) (by decide +kernel) (by decide +kernel)
  have hpath : (Settings.ofEnvironment lookup).statePath = some "state" := by decide +kernel
  have hapart : LogApart none (.ofEnvironment lookup) ["program"] files :=
    logApart_of_avoids (by decide +kernel) hpath (by decide +kernel)
  have hotherApart : LogApart otherLog (.ofEnvironment other) ["program"] files :=
    logApart_of_avoids (by decide +kernel) ((statePath_congr hsame).trans hpath)
      (by decide +kernel)
  obtain ⟨-, hexit, houtput, -, hsaved⟩ := logging_changes_nothing hsame 3 hreliable hreliable
    hopens hotherOpens hapart hotherApart
  have hzero : ending.exit = .code 0 := by decide +kernel
  have hwritten : ending.world.output.written = "8\n" := by decide +kernel
  refine ⟨hsame, hreliable, hopens, hotherOpens, hapart, hotherApart, hzero, hexit.trans hzero,
    ?_, hsaved "state" (Settings.statePath_eq_some_iff.mp hpath)⟩
  rw [houtput]
  exact hwritten

end ByteMachine.Session
