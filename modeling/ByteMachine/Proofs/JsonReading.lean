import ByteMachine.Json.Reader
import ByteMachine.Proofs.JsonScanning
/-!
# Reading printed JSON

The reader puts a value together again from its tokens. Between two tokens it keeps the
arrays and objects that are open; the tokens of a value leave them as they are and complete
the value, so that reading follows the structure of the value.

With the scanner in front this is the round trip: what is printed, in either layout, is read
as the value that it was printed from.

## Main statements

- `readAll_tokens`: the tokens of a value are read as the value.
- `read?_print`: a printed value is read as that value.
-/

namespace ByteMachine.Json

/-! ## Reading from anywhere -/

/-- The value that a reader has at the end of a sequence of tokens. -/
def Reader.readAll (reader : Reader) (tokens : List Token) : Option Json := do
  let last ← tokens.foldlM Reader.read reader
  last.finish

variable {later : List Token}

theorem Reader.readAll_cons {reader next : Reader} {token : Token}
    (h : reader.read token = some next) :
    reader.readAll (token :: later) = next.readAll later := by
  simp [Reader.readAll, List.foldlM_cons, h]

/-- At the start of an array an item is read like any other value. -/
theorem read_firstItem (frames : List Frame) {token : Token} (h : token ≠ .closeArray) :
    Reader.read ⟨frames, .firstItem⟩ token = Reader.read ⟨frames, .value⟩ token := by
  simp only [Reader.read]
  split
  · exact absurd rfl h
  · rfl

theorem exists_tokens_eq_cons (value : Json) :
    ∃ token rest, value.tokens = token :: rest ∧ token ≠ .closeArray := by
  cases value with
  | array items => cases items <;> exact ⟨.openArray, _, rfl, by simp⟩
  | object members => cases members <;> exact ⟨.openObject, _, rfl, by simp⟩
  | _ => exact ⟨_, [], rfl, by simp⟩

theorem readAll_firstItem (frames : List Frame) (value : Json) :
    Reader.readAll ⟨frames, .firstItem⟩ (value.tokens ++ later)
      = Reader.readAll ⟨frames, .value⟩ (value.tokens ++ later) := by
  obtain ⟨token, rest, htokens, htoken⟩ := exists_tokens_eq_cons value
  rw [htokens]
  simp only [List.cons_append, Reader.readAll, List.foldlM_cons, read_firstItem frames htoken]

/-! ## Values from their tokens -/

mutual

/-- The tokens of a value are read as the value, whatever is open around it. -/
theorem readAll_tokens (frames : List Frame) (later : List Token) : (value : Json) →
    Reader.readAll ⟨frames, .value⟩ (value.tokens ++ later)
      = Reader.readAll ⟨frames, .complete value⟩ later
  | null => rfl
  | bool _ => rfl
  | integer _ => rfl
  | real _ => rfl
  | text _ => rfl
  | array [] => rfl
  | array (item :: rest) => by
    have hopen : Reader.read ⟨frames, .value⟩ .openArray
        = some ⟨.array [] :: frames, .firstItem⟩ := rfl
    simp only [tokens, List.cons_append, List.append_assoc]
    rw [Reader.readAll_cons hopen, readAll_firstItem, readAll_tokens, List.nil_append,
      readAll_itemTokens]
    rfl
  | object [] => rfl
  | object ((key, value) :: rest) => by
    simp only [tokens, List.cons_append, List.append_assoc, List.nil_append]
    -- The bracket, the key and the colon lead to the value of the first member.
    change Reader.readAll ⟨.object [] key :: frames, .value⟩ _ = _
    rw [readAll_tokens, readAll_memberTokens]
    rfl

/-- Behind an item the tokens of the further ones are read as these. -/
theorem readAll_itemTokens (frames : List Frame) (later : List Token) (done : List Json)
    (item : Json) : (items : List Json) →
    Reader.readAll ⟨.array done :: frames, .complete item⟩ (itemTokens items ++ .closeArray :: later)
      = Reader.readAll ⟨frames, .complete (.array (done.reverse ++ item :: items))⟩ later
  | [] => by
    apply Reader.readAll_cons
    simp [Reader.read, Reader.readBehind]
  | next :: rest => by
    have hcomma : Reader.read ⟨.array done :: frames, .complete item⟩ .comma
        = some ⟨.array (item :: done) :: frames, .value⟩ := rfl
    simp only [itemTokens, List.cons_append, List.append_assoc]
    rw [Reader.readAll_cons hcomma, readAll_tokens, readAll_itemTokens]
    simp

/-- Behind a member the tokens of the further ones are read as these. -/
theorem readAll_memberTokens (frames : List Frame) (later : List Token)
    (done : List (String × Json)) (key : String) (value : Json) :
    (members : List (String × Json)) →
    Reader.readAll ⟨.object done key :: frames, .complete value⟩
        (memberTokens members ++ .closeObject :: later)
      = Reader.readAll ⟨frames, .complete (.object (done.reverse ++ (key, value) :: members))⟩ later
  | [] => by
    apply Reader.readAll_cons
    simp [Reader.read, Reader.readBehind]
  | (nextKey, next) :: rest => by
    simp only [memberTokens, List.cons_append, List.append_assoc]
    change Reader.readAll ⟨.object ((key, value) :: done) nextKey :: frames, .value⟩ _ = _
    rw [readAll_tokens, readAll_memberTokens]
    simp

end

theorem ofTokens?_tokens (value : Json) : ofTokens? value.tokens = some value := by
  have hread := readAll_tokens [] [] value
  rw [List.append_nil] at hread
  exact hread

/-! ## The round trip -/

/-- A printed value is read as the value that it was printed from. -/
theorem read?_print (layout : Layout) {value : Json} (h : value.Spelt) :
    read? (String.ofList (print layout 0 value)) = some value := by
  simp [read?, scan_print layout 0 h, ofTokens?_tokens]

end ByteMachine.Json
