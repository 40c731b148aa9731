import ByteMachine.Json.Token
/-!
# Reading JSON

The reader takes the tokens of a text one at a time. It keeps the arrays and
objects that are still open on a stack, each with what it holds so far, and a
phase that says which tokens may follow.
-/

namespace ByteMachine.Json

/-- An array or object that is still open. What it holds comes last one first. -/
inductive Frame where
  | array (items : List Json)
  /-- An object and the key of the member whose value is being read. -/
  | object (members : List (String × Json)) (key : String)

/-- What the reader waits for. -/
inductive Phase where
  /-- A value. -/
  | value
  /-- A value or the end of the array that has just been opened. -/
  | firstItem
  /-- A key or the end of the object that has just been opened. -/
  | firstMember
  /-- A key. -/
  | member (members : List (String × Json))
  /-- The colon behind a key. -/
  | colon (members : List (String × Json)) (key : String)
  /-- What follows a complete value. -/
  | complete (value : Json)

/-- The reader between two tokens. -/
structure Reader where
  frames : List Frame := []
  phase : Phase := .value

namespace Reader

/-- Reads the first token of a value. -/
def readValue (frames : List Frame) : Token → Option Reader
  | .openArray => some ⟨.array [] :: frames, .firstItem⟩
  | .openObject => some ⟨frames, .firstMember⟩
  | .text value => some ⟨frames, .complete (.text value)⟩
  | .word value => some ⟨frames, .complete value⟩
  | _ => none

/-- Reads the token behind a complete value. -/
def readBehind (frames : List Frame) (value : Json) (token : Token) : Option Reader :=
  match frames, token with
  | .array items :: frames, .comma => some ⟨.array (value :: items) :: frames, .value⟩
  | .array items :: frames, .closeArray =>
    some ⟨frames, .complete (.array (value :: items).reverse)⟩
  | .object members key :: frames, .comma => some ⟨frames, .member ((key, value) :: members)⟩
  | .object members key :: frames, .closeObject =>
    some ⟨frames, .complete (.object ((key, value) :: members).reverse)⟩
  | _, _ => none

/-- Reads a token. -/
def read (reader : Reader) (token : Token) : Option Reader :=
  match reader.phase with
  | .value => readValue reader.frames token
  | .firstItem =>
    match reader.frames, token with
    | .array [] :: frames, .closeArray => some ⟨frames, .complete (.array [])⟩
    | frames, token => readValue frames token
  | .firstMember =>
    match token with
    | .closeObject => some ⟨reader.frames, .complete (.object [])⟩
    | .text key => some ⟨reader.frames, .colon [] key⟩
    | _ => none
  | .member members =>
    match token with
    | .text key => some ⟨reader.frames, .colon members key⟩
    | _ => none
  | .colon members key =>
    match token with
    | .colon => some ⟨.object members key :: reader.frames, .value⟩
    | _ => none
  | .complete value => readBehind reader.frames value token

/-- The value at the end of the text: everything that was opened is closed. -/
def finish (reader : Reader) : Option Json :=
  match reader with
  | ⟨[], .complete value⟩ => some value
  | _ => none

end Reader

/-- The value of a sequence of tokens. -/
def ofTokens? (tokens : List Token) : Option Json := do
  let reader ← tokens.foldlM Reader.read {}
  reader.finish

/-- The value that a text spells. -/
def read? (text : String) : Option Json := do
  let tokens ← scan text.toList
  ofTokens? tokens

end ByteMachine.Json
