import ByteMachine.Proofs.Files
/-!
# Files beside a log

A log file is made and gets longer while other files are read and written. Whoever keeps away from
it sees nothing of that: a path leads to the same place, or nowhere for the same reason, and what
is read or written there is the same.

Keeping away from the log is a matter of the places that are looked at on the way, the last one
included, also where nothing is found: a path through the name of the log file would find a file
where there was none before.

## Main definitions

- `Avoids`: a path does not lead to the log, nor through it.
- `Besides`: two file systems are the same but for the log.

## Main statements

- `Besides.readText_eq`: the same is read.
- `Besides.write`: the same is written, and the file systems are the same afterwards.
- `Besides.append`: the log may get longer at any time.
-/

namespace ByteMachine.Files

variable {files other : Files} {place start : Place} {log : Option Place} {path text : String}

/-! ## Adding to a file -/

theorem workingDirectory_append : (files.append place text).workingDirectory =
    files.workingDirectory := by
  unfold append
  split <;> rfl

theorem find?_append_of_ne {elsewhere : Place} (h : elsewhere ≠ place) :
    (files.append place text).find? elsewhere = files.find? elsewhere := by
  unfold append
  split
  · exact find?_put_of_ne files _ h
  · exact find?_put_of_ne files _ h
  · rfl

theorem isDirectory_append (h : files.isDirectory place = false) :
    (files.append place text).isDirectory place = false := by
  have hne := ne_nil_of_not_isDirectory h
  unfold append
  split
  · simp [isDirectory, find?_put_self files hne]
  · simp [isDirectory, find?_put_self files hne]
  · exact h

/-! ## Keeping away from the log -/

/-- The places that are looked at on the way by the names, the first one included. The way ends
    where it cannot go on, with the place that was looked for. -/
def waypoints (files : Files) (start : Place) : List String → List Place
  | [] => [start]
  | name :: rest =>
    start ::
      match files.enter start name with
      | .ok next => files.waypoints next rest
      | .error _ => [start ++ [name]]

/-- The path leads neither to the log nor through it. -/
def Avoids (log : Option Place) (files : Files) (path : String) : Prop :=
  ∀ place ∈ files.waypoints (files.origin path) (names path), log ≠ some place

instance (log : Option Place) (files : Files) (path : String) : Decidable (Avoids log files path) :=
  inferInstanceAs (Decidable (∀ place ∈ files.waypoints (files.origin path) (names path),
    log ≠ some place))

theorem start_mem_waypoints (names : List String) : start ∈ files.waypoints start names := by
  cases names with
  | nil => exact List.mem_singleton_self start
  | cons name rest => exact List.mem_cons_self

/-- A longer way looks at what the shorter one looks at, be it open or not. -/
theorem mem_waypoints_append {names : List String} (more : List String)
    (h : place ∈ files.waypoints start names) : place ∈ files.waypoints start (names ++ more) := by
  induction names generalizing start with
  | nil =>
    rw [waypoints, List.mem_singleton] at h
    rw [h]
    exact start_mem_waypoints more
  | cons name rest ih =>
    rw [List.cons_append, waypoints]
    rw [waypoints] at h
    rcases List.mem_cons.mp h with hstart | hlater
    · rw [hstart]
      exact List.mem_cons_self
    · cases henter : files.enter start name with
      | error e =>
        rw [henter] at hlater
        exact List.mem_cons_of_mem _ hlater
      | ok next =>
        rw [henter] at hlater
        exact List.mem_cons_of_mem _ (ih hlater)

/-- The place that is reached is looked at. -/
theorem mem_waypoints_of_follow {names : List String}
    (h : files.follow start names = .ok place) : place ∈ files.waypoints start names := by
  induction names generalizing start with
  | nil =>
    cases h
    exact List.mem_singleton_self _
  | cons name rest ih =>
    rw [follow] at h
    rw [waypoints]
    cases henter : files.enter start name with
    | error e =>
      rw [henter] at h
      cases h
    | ok next =>
      rw [henter] at h
      exact List.mem_cons_of_mem _ (ih h)

theorem mem_waypoints_of_resolve (h : files.resolve path = .ok place) :
    place ∈ files.waypoints (files.origin path) (names path) := by
  apply mem_waypoints_of_follow
  unfold resolve at h
  cases hcheck : checkPath path with
  | error e => simp [hcheck, bind, Except.bind] at h
  | ok checked =>
    cases hfollow : files.follow (files.origin path) (names path) with
    | error e => simp [hcheck, hfollow, bind, Except.bind] at h
    | ok reached =>
      simp only [hcheck, hfollow, bind, Except.bind, pure, Except.pure, throw, throwThe,
        MonadExceptOf.throw] at h
      split_ifs at h
      · cases h
        rfl

/-- A name that is no dot leads to the entry with this name. -/
theorem next_of_enter {name : String} {next : Place} (hplain : name ≠ "." ∧ name ≠ "..")
    (h : files.enter start name = .ok next) : next = start ++ [name] := by
  unfold enter at h
  split_ifs at h with hopen hdot hdots
  · exact absurd hdot hplain.1
  · exact absurd hdots hplain.2
  · cases h
    rfl

/-- The last place is looked for, be it there or not. -/
theorem waypoints_concat {names : List String} {name : String} {parent : Place}
    (hplain : name ≠ "." ∧ name ≠ "..") (h : files.follow start names = .ok parent) :
    files.waypoints start (names ++ [name]) =
      files.waypoints start names ++ [parent ++ [name]] := by
  induction names generalizing start with
  | nil =>
    cases h
    rw [List.nil_append, waypoints, waypoints]
    cases henter : files.enter parent name with
    | error e => rfl
    | ok next =>
      rw [next_of_enter hplain henter]
      rfl
  | cons first rest ih =>
    rw [follow] at h
    rw [List.cons_append, waypoints, waypoints]
    cases henter : files.enter start first with
    | error e =>
      rw [henter] at h
      cases h
    | ok next =>
      rw [henter] at h
      dsimp only
      rw [ih h, List.cons_append]

theorem mem_waypoints_of_resolveNew (h : files.resolveNew path = .ok place) :
    place ∈ files.waypoints (files.origin path) (names path) := by
  obtain ⟨parent, name, hleads, rfl⟩ := leadsToFile_of_resolveNew h
  rw [names_eq_concat hleads.last, waypoints_concat hleads.plain.2 hleads.reached]
  exact List.mem_append_right _ (List.mem_singleton_self _)

/-! ## Keeping away from the log once a file has been put -/

theorem waypoints_put {names : List String} {parent : Place}
    (hfile : files.isDirectory place = false) (h : files.follow start names = .ok parent)
    (entry : Entry) :
    (files.put place entry).waypoints start names = files.waypoints start names := by
  induction names generalizing start with
  | nil => rfl
  | cons name rest ih =>
    rw [follow] at h
    rw [waypoints, waypoints]
    cases henter : files.enter start name with
    | error e =>
      rw [henter] at h
      cases h
    | ok next =>
      rw [henter] at h
      rw [enter_put hfile henter]
      dsimp only
      rw [ih h]

/-- A path stays away from the log when the file is put there that it leads to. -/
theorem Avoids.put (havoid : Avoids log files path) (h : files.resolveNew path = .ok place)
    (entry : Entry) : Avoids log (files.put place entry) path := by
  obtain ⟨parent, name, hleads, rfl⟩ := leadsToFile_of_resolveNew h
  have hsame : (files.put (parent ++ [name]) entry).waypoints (files.origin path) (names path) =
      files.waypoints (files.origin path) (names path) := by
    rw [names_eq_concat hleads.last, waypoints_concat hleads.plain.2 hleads.reached,
      waypoints_concat hleads.plain.2 (follow_put hleads.free hleads.reached),
      waypoints_put hleads.free hleads.reached]
  unfold Avoids
  change ∀ place ∈ (files.put (parent ++ [name]) entry).waypoints (files.origin path) (names path),
    log ≠ some place
  rwa [hsame]

/-! ## The same files but for the log -/

/-- The file systems are the same but for the log, which is no directory. -/
structure Besides (log : Option Place) (files other : Files) : Prop where
  workingDirectory_eq : other.workingDirectory = files.workingDirectory
  find?_eq : ∀ place, log ≠ some place → other.find? place = files.find? place
  file : ∀ place, log = some place →
    files.isDirectory place = false ∧ other.isDirectory place = false

namespace Besides

theorem of_none (files : Files) : Besides none files files where
  workingDirectory_eq := rfl
  find?_eq _ _ := rfl
  file _ h := nomatch h

theorem of_file (h : files.isDirectory place = false) : Besides (some place) files files where
  workingDirectory_eq := rfl
  find?_eq _ _ := rfl
  file := by
    rintro _ ⟨⟩
    exact ⟨h, h⟩

/-- **The log may get longer at any time.** -/
theorem append (h : Besides (some place) files other) (text : String) :
    Besides (some place) files (other.append place text) where
  workingDirectory_eq := workingDirectory_append.trans h.workingDirectory_eq
  find?_eq elsewhere hne := by
    rw [find?_append_of_ne (by rintro rfl; exact hne rfl)]
    exact h.find?_eq elsewhere hne
  file := by
    rintro _ ⟨⟩
    obtain ⟨hfile, hother⟩ := h.file place rfl
    exact ⟨hfile, isDirectory_append hother⟩

variable (h : Besides log files other)
include h

theorem isDirectory_eq (place : Place) : other.isDirectory place = files.isDirectory place := by
  by_cases hlog : log = some place
  · obtain ⟨hfile, hother⟩ := h.file place hlog
    rw [hfile, hother]
  · rw [isDirectory, isDirectory, h.find?_eq place hlog]

theorem origin_eq (path : String) : other.origin path = files.origin path := by
  rw [origin, origin, h.workingDirectory_eq]

/-- The same entry may be put anywhere but at the log. -/
theorem put (hplace : log ≠ some place) (entry : Entry) :
    Besides log (files.put place entry) (other.put place entry) where
  workingDirectory_eq := h.workingDirectory_eq
  find?_eq elsewhere hne := by
    by_cases hhere : elsewhere = place
    · subst hhere
      by_cases hroot : elsewhere = []
      · rw [hroot, find?, find?, if_pos rfl, if_pos rfl]
      · rw [find?_put_self other hroot, find?_put_self files hroot]
    · rw [find?_put_of_ne other entry hhere, find?_put_of_ne files entry hhere]
      exact h.find?_eq elsewhere hne
  file := by
    intro here hlog
    obtain ⟨hfile, hother⟩ := h.file here hlog
    have hne : here ≠ place := by
      rintro rfl
      exact hplace hlog
    rw [isDirectory, isDirectory, find?_put_of_ne files entry hne, find?_put_of_ne other entry hne]
    exact ⟨hfile, hother⟩

/-- A name leads to the same place, or nowhere for the same reason, if the place that is looked
    for is not the log. -/
theorem enter_eq {name : String}
    (havoid : log ≠ some (match files.enter start name with
      | .ok next => next
      | .error _ => start ++ [name])) :
    other.enter start name = files.enter start name := by
  by_cases hlog : log = some (start ++ [name])
  · -- The log would be looked for, were it not that the way ends or turns before.
    unfold enter at havoid ⊢
    rw [h.isDirectory_eq]
    split_ifs at havoid ⊢ <;> first | rfl | exact absurd hlog havoid
  · rw [enter, enter, h.isDirectory_eq, h.find?_eq _ hlog]

theorem follow_eq {names : List String}
    (havoid : ∀ place ∈ files.waypoints start names, log ≠ some place) :
    other.follow start names = files.follow start names := by
  induction names generalizing start with
  | nil => rfl
  | cons name rest ih =>
    rw [waypoints] at havoid
    have hlater := (List.forall_mem_cons.mp havoid).2
    rw [follow, follow]
    cases henter : files.enter start name with
    | error e =>
      rw [henter] at hlater
      have htried : log ≠ some (start ++ [name]) := hlater _ (List.mem_singleton_self _)
      rw [h.enter_eq (by rw [henter]; exact htried), henter]
    | ok next =>
      rw [henter] at hlater
      have hnext : log ≠ some next := hlater next (start_mem_waypoints rest)
      rw [h.enter_eq (by rw [henter]; exact hnext), henter]
      exact ih hlater

theorem resolve_eq (havoid : Avoids log files path) : other.resolve path = files.resolve path := by
  simp only [resolve, h.origin_eq, h.follow_eq havoid, h.isDirectory_eq]

/-- **The same is read.** -/
theorem readText_eq (havoid : Avoids log files path) :
    other.readText path = files.readText path := by
  unfold readText
  rw [h.resolve_eq havoid]
  cases hresolve : files.resolve path with
  | error e => rfl
  | ok place =>
    have hplace : log ≠ some place := havoid place (mem_waypoints_of_resolve hresolve)
    simp only [bind, Except.bind, h.find?_eq place hplace]

theorem resolveNew_eq (havoid : Avoids log files path) :
    other.resolveNew path = files.resolveNew path := by
  unfold resolveNew
  cases hlast : (names path).getLast? with
  | none => rfl
  | some name =>
    -- The places on the way to the directory are among those on the way to the file.
    have hfollow : other.follow (files.origin path) (names path).dropLast =
        files.follow (files.origin path) (names path).dropLast := by
      apply h.follow_eq
      intro place hmem
      apply havoid
      rw [names_eq_concat hlast]
      exact mem_waypoints_append [name] hmem
    simp only [h.origin_eq, hfollow, h.isDirectory_eq]

/-- **The same is written.** -/
theorem write (havoid : Avoids log files path) (text : String) :
    (∃ e, files.write path text = .error e ∧ other.write path text = .error e) ∨
    ∃ after next, files.write path text = .ok after ∧ other.write path text = .ok next ∧
      Besides log after next := by
  have hsame := h.resolveNew_eq havoid
  cases hplace : files.resolveNew path with
  | error e =>
    rw [hplace] at hsame
    exact .inl ⟨e, write_of_resolveNew_error hplace text, write_of_resolveNew_error hsame text⟩
  | ok place =>
    rw [hplace] at hsame
    have hlog : log ≠ some place := havoid place (mem_waypoints_of_resolveNew hplace)
    rw [write_of_resolveNew hplace, write_of_resolveNew hsame, h.find?_eq place hlog]
    refine .inr ⟨_, _, rfl, rfl, ?_⟩
    split
    · exact h
    · exact h.put hlog _

end Besides

end ByteMachine.Files
