import ByteMachine.Text.Split
/-!
# Files

A file system as far as a session sees it: directories and files under a root,
and a working directory from which relative paths start. A path is followed
name by name, so what is found on the way decides which error there is: a
missing name, a file where a directory is needed, or a name that is too long.
-/

namespace ByteMachine

/-- Why a file cannot be read or written. -/
inductive FileError where
  | notFound
  | notDirectory
  | isDirectory
  | nameTooLong
  /-- The file holds bytes that are no text. -/
  | notText
deriving DecidableEq, Repr

/-- The wording of a file error. -/
def FileError.reason : FileError → String
  | notFound => "No such file or directory (os error 2)"
  | notDirectory => "Not a directory (os error 20)"
  | isDirectory => "Is a directory (os error 21)"
  | nameTooLong => "File name too long (os error 36)"
  | notText => "stream did not contain valid UTF-8"

/-- What is found at a place. -/
inductive Entry where
  | directory
  /-- A file with a text. -/
  | text (value : String)
  /-- A file with bytes that are no text. -/
  | binary
  /-- The null device: an empty file that stays empty whatever is written to it. -/
  | null
deriving DecidableEq, Repr

/-- The file with the given bytes. -/
def Entry.ofBytes (content : ByteArray) : Entry :=
  match String.fromUTF8? content with
  | some value => .text value
  | none => .binary

/-- A place in the file system: the names from the root down. -/
abbrev Place := List String

/-- A file system: its entries below the root, by place. -/
structure Files where
  entries : List (Place × Entry) := []
  /-- The working directory. -/
  workingDirectory : Place := []
deriving DecidableEq, Repr

namespace Files

/-- The number of bytes from which on a path is too long. -/
def pathLimit : Nat := 4096

/-- The greatest number of bytes of a name. -/
def nameLimit : Nat := 255

/-! ## Entries -/

/-- What is found at a place. -/
def find? (files : Files) (place : Place) : Option Entry :=
  if place = [] then some .directory else files.entries.lookup place

/-- Whether there is a directory at a place. -/
def isDirectory (files : Files) (place : Place) : Bool :=
  files.find? place = some .directory

/-- The file system with an entry put at a place, in place of what was there. -/
def put (files : Files) (place : Place) (entry : Entry) : Files :=
  { files with entries := (place, entry) :: files.entries.filter (·.1 ≠ place) }

/-- The file system with a directory at a place unless something is there. -/
def ensureDirectory (files : Files) (place : Place) : Files :=
  if (files.find? place).isSome then files else files.put place .directory

/-- The file system with an entry put at a place and directories above it. -/
def add (files : Files) (place : Place) (entry : Entry) : Files :=
  (((List.range place.length).map place.take).foldl ensureDirectory files).put place entry

/-! ## Paths -/

/-- The names of a path, in order. -/
def names (path : String) : List String :=
  (Text.parts '/' path.toList).map String.ofList

/-- Whether a path starts at the root. -/
def isAbsolute (path : String) : Bool :=
  path.toList.head? == some '/'

/-- Whether a path asks for a directory by its last character. -/
def endsInSlash (path : String) : Bool :=
  path.toList.getLast? == some '/'

/-- The place from which a path starts. -/
def origin (files : Files) (path : String) : Place :=
  if isAbsolute path then [] else files.workingDirectory

/-- Goes on from a place by one name. -/
def enter (files : Files) (place : Place) (name : String) : Except FileError Place :=
  if !files.isDirectory place then .error .notDirectory
  else if name = "." then .ok place
  else if name = ".." then .ok place.dropLast
  else if nameLimit < name.utf8ByteSize then .error .nameTooLong
  else if (files.find? (place ++ [name])).isNone then .error .notFound
  else .ok (place ++ [name])

/-- Goes on from a place by one name after the other. -/
def follow (files : Files) (place : Place) : List String → Except FileError Place
  | [] => .ok place
  | name :: rest =>
    match files.enter place name with
    | .ok next => files.follow next rest
    | .error e => .error e

/-- Refuses the paths that lead nowhere whatever there is. -/
def checkPath (path : String) : Except FileError Unit :=
  if path = "" then .error .notFound
  else if pathLimit ≤ path.utf8ByteSize then .error .nameTooLong
  else .ok ()

/-- The place that a path leads to. -/
def resolve (files : Files) (path : String) : Except FileError Place := do
  checkPath path
  let place ← files.follow (files.origin path) (names path)
  if endsInSlash path && !files.isDirectory place then throw .notDirectory
  return place

/-! ## Reading and writing -/

/-- The text of the file at a path. -/
def readText (files : Files) (path : String) : Except FileError String := do
  let place ← files.resolve path
  match files.find? place with
  | some (.text value) => return value
  | some .binary => throw .notText
  | some .null => return ""
  | some .directory => throw .isDirectory
  | none => throw .notFound

/-- The place of a file that is to be written: everything above it is there, and
    it is not a directory itself. -/
def resolveNew (files : Files) (path : String) : Except FileError Place := do
  checkPath path
  match (names path).getLast? with
  | none => throw .isDirectory
  | some name =>
    let parent ← files.follow (files.origin path) (names path).dropLast
    if !files.isDirectory parent then throw .notDirectory
    -- The form of the path counts before its last name: these cannot be files.
    if endsInSlash path || name == "." || name == ".." then throw .isDirectory
    if nameLimit < name.utf8ByteSize then throw .nameTooLong
    if files.isDirectory (parent ++ [name]) then throw .isDirectory
    return parent ++ [name]

/-- The file system after a text has been written to the file at a path. -/
def write (files : Files) (path text : String) : Except FileError Files := do
  let place ← files.resolveNew path
  if files.find? place = some .null then return files
  return files.put place (.text text)

/-- The file system after a text has been added at the end of the file at a place, which is made
    if it is not there. -/
def append (files : Files) (place : Place) (text : String) : Files :=
  match files.find? place with
  | none => files.put place (.text text)
  | some (.text old) => files.put place (.text (old ++ text))
  | some _ => files

/-! ## Entries after a change -/

theorem find?_put_self (files : Files) {place : Place} (h : place ≠ []) (entry : Entry) :
    (files.put place entry).find? place = some entry := by
  simp [find?, put, h]

end Files

end ByteMachine
