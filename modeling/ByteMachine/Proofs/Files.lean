import ByteMachine.Files
import Mathlib.Data.List.Basic
import Mathlib.Tactic.ByContra
import Mathlib.Tactic.SplitIfs
/-!
# Files after a text has been written

A text that is written at a path is found there afterwards: the path still leads to the place
where the file was put, as every directory on the way is still there. All other places are as
they were. The one file that can be written and keeps nothing is the null device.

## Main statements

- `follow_put`: a way through directories stays open when a file is put somewhere.
- `readText_put`: a text that is put where a path leads to is read there.
- `write_of_keeps`, `write_of_not_keeps`: what writing a text does to the file system.
-/

namespace ByteMachine.Files

variable {files after : Files} {place start other : Place} {entry : Entry} {path text : String}

/-! ## Entries -/

theorem lookup_filter_ne (entries : List (Place × Entry)) (h : other ≠ place) :
    (entries.filter (·.1 ≠ place)).lookup other = entries.lookup other := by
  induction entries with
  | nil => rfl
  | cons first rest ih =>
    obtain ⟨here, entry⟩ := first
    by_cases hhere : here = place
    · -- What is filtered out is not what is looked for.
      subst hhere
      rw [List.filter_cons_of_neg (by simp), ih, List.lookup_cons, beq_false_of_ne h]
    · rw [List.filter_cons_of_pos (by simpa using hhere), List.lookup_cons, List.lookup_cons, ih]

theorem find?_put_of_ne (files : Files) (entry : Entry) (h : other ≠ place) :
    (files.put place entry).find? other = files.find? other := by
  simp only [find?, put, List.lookup_cons, beq_false_of_ne h, lookup_filter_ne _ h]

/-- The root is a directory, and so is no place for a file. -/
theorem ne_nil_of_not_isDirectory (h : files.isDirectory place = false) : place ≠ [] := by
  rintro rfl
  simp [isDirectory, find?] at h

/-- A directory stays one when a file is put somewhere. -/
theorem isDirectory_put (hfile : files.isDirectory place = false)
    (h : files.isDirectory other = true) : (files.put place entry).isDirectory other = true := by
  -- The file is put where no directory is, so the directory is elsewhere.
  have hne : other ≠ place := by
    rintro rfl
    rw [hfile] at h
    cases h
  unfold isDirectory at h ⊢
  rwa [find?_put_of_ne files entry hne]

/-! ## Ways through directories -/

theorem isDirectory_of_enter {name : String} {next : Place}
    (h : files.enter start name = .ok next) : files.isDirectory start = true := by
  unfold enter at h
  split at h
  · cases h
  · next hopen => simpa using hopen

theorem enter_put {name : String} {next : Place} (hfile : files.isDirectory place = false)
    (h : files.enter start name = .ok next) :
    (files.put place entry).enter start name = .ok next := by
  have hstart := isDirectory_of_enter h
  -- What was found on the way is found still, be it the file itself.
  have hfound (hsome : ((files.find? (start ++ [name])).isNone) = false) :
      ((files.put place entry).find? (start ++ [name])).isNone = false := by
    by_cases hhere : start ++ [name] = place
    · rw [hhere, find?_put_self files (ne_nil_of_not_isDirectory hfile)]
      rfl
    · rwa [find?_put_of_ne files entry hhere]
  unfold enter at h ⊢
  rw [hstart] at h
  rw [isDirectory_put hfile hstart]
  split_ifs at h ⊢ with hopen hdot hdots hlong hput hnone
  · exact h
  · exact h
  · rw [hfound (Bool.eq_false_iff.mpr hnone)] at hput
    cases hput
  · exact h

theorem follow_put {names : List String} {next : Place} (hfile : files.isDirectory place = false)
    (h : files.follow start names = .ok next) :
    (files.put place entry).follow start names = .ok next := by
  induction names generalizing start with
  | nil => exact h
  | cons name rest ih =>
    unfold follow at h ⊢
    cases henter : files.enter start name with
    | error e =>
      rw [henter] at h
      cases h
    | ok between =>
      rw [henter] at h
      rw [enter_put hfile henter]
      exact ih h

theorem follow_concat {names : List String} {name : String} {parent : Place}
    (h : files.follow start names = .ok parent) :
    files.follow start (names ++ [name]) = files.enter parent name := by
  induction names generalizing start with
  | nil =>
    cases h
    rw [List.nil_append, follow]
    cases files.enter parent name <;> rfl
  | cons first rest ih =>
    rw [List.cons_append, follow]
    rw [follow] at h
    cases henter : files.enter start first with
    | error e =>
      rw [henter] at h
      cases h
    | ok between =>
      rw [henter] at h
      exact ih h

/-! ## Places for files -/

theorem names_eq_concat {name : String} (h : (names path).getLast? = some name) :
    names path = (names path).dropLast ++ [name] :=
  (List.dropLast_append_getLast? name h).symm

/-- The path leads to a place where a file can be written: the last of its names, in a directory
    to which the others lead. -/
structure LeadsToFile (files : Files) (path : String) (parent : Place) (name : String) : Prop where
  checked : checkPath path = .ok ()
  last : (names path).getLast? = some name
  reached : files.follow (files.origin path) (names path).dropLast = .ok parent
  inside : files.isDirectory parent = true
  plain : endsInSlash path = false ∧ name ≠ "." ∧ name ≠ ".."
  short : ¬ nameLimit < name.utf8ByteSize
  free : files.isDirectory (parent ++ [name]) = false

theorem leadsToFile_of_resolveNew (h : files.resolveNew path = .ok place) :
    ∃ parent name, files.LeadsToFile path parent name ∧ place = parent ++ [name] := by
  unfold resolveNew at h
  cases hcheck : checkPath path with
  | error e => simp [hcheck, bind, Except.bind] at h
  | ok checked =>
    cases hlast : (names path).getLast? with
    | none => simp [hcheck, hlast, bind, Except.bind, throw, throwThe, MonadExceptOf.throw] at h
    | some name =>
      cases hfollow : files.follow (files.origin path) (names path).dropLast with
      | error e => simp [hcheck, hlast, hfollow, bind, Except.bind] at h
      | ok parent =>
        simp only [hcheck, hlast, hfollow, bind, Except.bind, pure, Except.pure, throw, throwThe,
          MonadExceptOf.throw] at h
        split_ifs at h with hinside hplain hshort hfree
        cases h
        simp only [Bool.or_eq_true, beq_iff_eq, not_or, Bool.not_eq_true] at hplain
        exact ⟨parent, name,
          ⟨hcheck, hlast, hfollow, by simpa using hinside, ⟨hplain.1.1, hplain.1.2, hplain.2⟩,
            hshort, Bool.eq_false_iff.mpr hfree⟩, rfl⟩

/-- **A text that is put where a path leads to is read there.** -/
theorem readText_put (h : files.resolveNew path = .ok place) (text : String) :
    (files.put place (.text text)).readText path = .ok text := by
  obtain ⟨parent, name, hleads, rfl⟩ := leadsToFile_of_resolveNew h
  have hself : (files.put (parent ++ [name]) (.text text)).find? (parent ++ [name]) =
      some (.text text) :=
    find?_put_self files (ne_nil_of_not_isDirectory hleads.free) _
  have henter : (files.put (parent ++ [name]) (.text text)).enter parent name =
      .ok (parent ++ [name]) := by
    unfold enter
    simp [isDirectory_put hleads.free hleads.inside, hleads.plain, hleads.short, hself]
  -- The way to the parent is open still, and one name more leads to the text.
  have hfollow : (files.put (parent ++ [name]) (.text text)).follow (files.origin path)
      (names path) = .ok (parent ++ [name]) := by
    rw [names_eq_concat hleads.last, follow_concat (follow_put hleads.free hleads.reached), henter]
  have hresolve : (files.put (parent ++ [name]) (.text text)).resolve path =
      .ok (parent ++ [name]) := by
    have horigin : (files.put (parent ++ [name]) (.text text)).origin path = files.origin path :=
      rfl
    unfold resolve
    rw [horigin, hleads.checked, hfollow]
    simp [hleads.plain, bind, Except.bind, pure, Except.pure]
  unfold readText
  rw [hresolve]
  simp only [bind, Except.bind, hself]
  rfl

/-! ## Writing -/

/-- A text can be kept at the path: it leads to a file, or to a place for a new one, and not to
    the null device, which takes every text and keeps none. -/
def Keeps (files : Files) (path : String) : Prop :=
  ∃ place, files.resolveNew path = .ok place ∧ files.find? place ≠ some .null

theorem write_of_resolveNew_error {e : FileError} (h : files.resolveNew path = .error e)
    (text : String) : files.write path text = .error e := by
  rw [Files.write, h]
  rfl

theorem write_of_resolveNew (h : files.resolveNew path = .ok place) (text : String) :
    files.write path text =
      .ok (if files.find? place = some .null then files else files.put place (.text text)) := by
  rw [Files.write, h]
  by_cases hnull : files.find? place = some .null <;>
    simp [bind, Except.bind, hnull, pure, Except.pure]

/-- **Writing puts the text** wherever a text can be kept. -/
theorem write_of_keeps (h : files.Keeps path) (text : String) :
    ∃ place, files.resolveNew path = .ok place ∧
      files.write path text = .ok (files.put place (.text text)) := by
  obtain ⟨place, hplace, hnull⟩ := h
  refine ⟨place, hplace, ?_⟩
  rw [write_of_resolveNew hplace, if_neg hnull]

/-- Writing changes nothing wherever no text can be kept. -/
theorem write_of_not_keeps (h : ¬ files.Keeps path) (text : String)
    (hwrite : files.write path text = .ok after) : after = files := by
  cases hplace : files.resolveNew path with
  | error e =>
    rw [write_of_resolveNew_error hplace] at hwrite
    cases hwrite
  | ok place =>
    have hnull : files.find? place = some .null := by
      by_contra hne
      exact h ⟨place, hplace, hne⟩
    rw [write_of_resolveNew hplace, if_pos hnull] at hwrite
    cases hwrite
    rfl

end ByteMachine.Files
