import ByteMachine.Proofs.Hexadecimal
import ByteMachine.Proofs.Step
/-!
# Texts offered to a sink

Offering a text in parts is offering it as a whole, whatever the parts are. A sink with
limited room therefore takes the beginning of all that it is offered, as far as it has
room, and it does not matter how a line is cut up on its way. What the machine prints
and the trace line have one byte for each character, so room in characters is room in
bytes.

## Main statements

- `Sink.offer_append`, `Sink.admits_append`: two texts one after the other are one text.
- `Sink.offerEach_eq`: a text may be offered in any pieces.
-/

namespace ByteMachine

namespace Sink

variable (sink : Sink) (first second : String)

/-! ## One text after the other -/

theorem admits_append :
    sink.admits (first ++ second) = (sink.admits first && (sink.offer first).admits second) := by
  obtain ⟨_ | room, refusal, written⟩ := sink
  · rfl
  · rw [Bool.eq_iff_iff, Bool.and_eq_true]
    simp only [admits, offer, Option.map_some, String.length_append, decide_eq_true_eq]
    omega

theorem offer_append : (sink.offer first).offer second = sink.offer (first ++ second) := by
  obtain ⟨_ | room, refusal, written⟩ := sink
  · simp only [offer, fitting, Option.map_none, String.append_assoc]
  · simp only [offer, fitting, Option.map_some, String.length_append, Nat.sub_sub,
      String.toList_append, List.take_append, String.length_toList, String.ofList_append,
      String.append_assoc]

/-- What comes behind a text that does not fit makes no difference. -/
theorem offer_append_of_not_admits (h : sink.admits first = false) :
    sink.offer (first ++ second) = sink.offer first := by
  obtain ⟨_ | room, refusal, written⟩ := sink
  · cases h
  · have hlong : room < first.length := by simpa [admits] using h
    have hfull : room - first.length = 0 := Nat.sub_eq_zero_of_le (Nat.le_of_lt hlong)
    simp only [offer, fitting, Option.map_some, String.length_append, ← Nat.sub_sub, hfull,
      Nat.zero_sub, String.toList_append, List.take_append, String.length_toList,
      List.take_zero, List.append_nil]

/-! ## Pieces of a text -/

/-- The sink after the pieces of a text have been offered up to the first one that does not
    fit, and whether all of them did. -/
def offerEach (sink : Sink) : List String → Sink × Bool
  | [] => (sink, true)
  | piece :: rest =>
    if sink.admits piece then (sink.offer piece).offerEach rest else (sink.offer piece, false)

/-- A text offered in pieces leaves the same sink with the same success as the whole text. -/
theorem offerEach_eq (pieces : List String) :
    sink.offerEach pieces = (sink.offer (String.join pieces), sink.admits (String.join pieces)) := by
  induction pieces generalizing sink with
  | nil => rw [offerEach, String.join_nil, offer_empty, admits_empty]
  | cons piece rest ih =>
    rw [offerEach, String.join_cons, admits_append]
    cases hfits : sink.admits piece with
    | true =>
      rw [if_pos rfl, ih, offer_append, Bool.true_and]
    | false =>
      rw [if_neg Bool.false_ne_true, sink.offer_append_of_not_admits _ _ hfits, Bool.false_and]

/-! ## Sinks with and without a limit -/

theorem written_offer_of_room_some {room : Nat} (h : sink.room = some room) (text : String) :
    (sink.offer text).written =
      sink.written ++ String.ofList (text.toList.take room) := by
  simp only [offer, fitting, h]

theorem admits_eq_true_iff {room : Nat} (h : sink.room = some room) {text : String} :
    sink.admits text = true ↔ text.length ≤ room := by
  simp only [admits, h, decide_eq_true_eq]

end Sink

/-! ## Characters and bytes -/

/-- Each character of the text is a single byte. -/
def IsAscii (text : String) : Prop :=
  ∀ c ∈ text.toList, c.utf8Size = 1

instance (text : String) : Decidable (IsAscii text) :=
  -- The characters of the text are tried, not all that there are.
  decidable_of_iff (text.toList.all (·.utf8Size == 1) = true) (by simp [IsAscii])

namespace IsAscii

theorem append {first second : String} (hfirst : IsAscii first) (hsecond : IsAscii second) :
    IsAscii (first ++ second) := by
  intro c hmem
  rw [String.toList_append, List.mem_append] at hmem
  rcases hmem with hmem | hmem
  · exact hfirst c hmem
  · exact hsecond c hmem

theorem join {texts : List String} (h : ∀ text ∈ texts, IsAscii text) :
    IsAscii (String.join texts) := by
  induction texts with
  | nil =>
    intro c hmem
    simp at hmem
  | cons text rest ih =>
    rw [String.join_cons]
    obtain ⟨htext, hrest⟩ := List.forall_mem_cons.mp h
    exact htext.append (ih hrest)

/-- Decimal numerals. -/
theorem repr (n : Nat) : IsAscii n.repr := by
  intro c hmem
  rw [Nat.toList_repr] at hmem
  have hdigit := Nat.isDigit_of_mem_toDigits (by decide) (by decide) hmem
  simp only [Char.isDigit, Bool.and_eq_true, decide_eq_true_eq] at hdigit
  rw [Char.utf8Size_eq_one_iff]
  exact UInt32.le_trans hdigit.2 (by decide)

theorem utf8Size_hexDigit : ∀ n < 16, (Numeral.hexDigit n).utf8Size = 1 := by
  decide

/-- Hexadecimal numerals of two digits. -/
theorem hex {n : Nat} (h : n < 256) : IsAscii (Numeral.hex n) := by
  intro c hmem
  rw [Numeral.toList_hex_of_lt h, Numeral.twoDigits, List.mem_cons, List.mem_singleton] at hmem
  rcases hmem with rfl | rfl
  · exact utf8Size_hexDigit _ (by omega)
  · exact utf8Size_hexDigit _ (by omega)

end IsAscii

end ByteMachine
