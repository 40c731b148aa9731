import ByteMachine.Machine.Run
import ByteMachine.Proofs.JsonReading
import ByteMachine.Snapshot
/-!
# Checkpoints

A machine may be saved as a text and go on later as the machine that the text is read as.
Nothing of its state gets lost on the way, in neither layout of the text, and so a
checkpoint between two steps cannot be told from what follows: not from the states, not
from the results of the steps and not from their output.

Checkpoints are kept apart from the machine here. A text that cannot be read would leave no
machine to go on with, so whatever is done with checkpoints on the way has an optional
result; that it is there is a part of what is proved.

## Main statements

- `decode_encode`: a snapshot holds the whole state.
- `ofText?_text`: it does so as a text as well, in either layout.
- `checkpoints_invisible`: checkpoints change nothing, between steps and within a run.
-/

namespace ByteMachine.Snapshot

open Json (Layout)

/-! ## Snapshots as values -/

theorem bytes?_ofBytes {n : Nat} (bytes : Vector UInt8 n) :
    bytes? n (ofBytes bytes) = some bytes := by
  have hitems : (bytes.toList.map ofByte).mapM byte? = some bytes.toList := by
    rw [List.mapM_map]
    induction bytes.toList with
    | nil => rfl
    | cons byte rest ih => simp [List.mapM_cons, ih]
  simp only [bytes?, ofBytes, Json.items?_array, hitems, Option.bind_eq_bind, Option.bind_some,
    Vector.length_toList, dite_true]
  rfl

theorem memory?_ofBytes (memory : Memory) :
    memory? (.object [("cells", ofBytes memory.cells)]) = some memory := by
  have hfields : fields? memoryKeys (.object [("cells", ofBytes memory.cells)])
      = some [ofBytes memory.cells] := rfl
  simp [memory?, hfields, bytes?_ofBytes]

/-- The fields of a snapshot are found under their keys. -/
theorem fields?_encode (machine : Machine) :
    fields? stateKeys (encode machine) = some [
      .object [("cells", ofBytes machine.memory.cells)], ofBytes machine.registers.cells,
      ofByte machine.flags.bits, .ofNat machine.pc.toNat, ofByte machine.ir,
      ofByte machine.stackLimit, .bool machine.running, .ofNat machine.cycles.toNat] := rfl

/-- **A snapshot holds the whole state of the machine.** -/
theorem decode_encode (machine : Machine) : decode (encode machine) = some machine := by
  simp [decode, fields?_encode, memory?_ofBytes, bytes?_ofBytes, Json.bool?]

/-! ## Snapshots as texts -/

/-- A machine as a text. -/
def text (layout : Layout) (machine : Machine) : String :=
  String.ofList (Json.print layout 0 (encode machine))

/-- The machine that a text is a snapshot of. -/
def ofText? (text : String) : Option Machine := do
  decode (← Json.read? text)

theorem text_compact (machine : Machine) : text .compact machine = (encode machine).compact := rfl

theorem text_indented (machine : Machine) : text .indented machine = (encode machine).pretty := rfl

theorem spelt_ofBytes {n : Nat} (bytes : Vector UInt8 n) : (ofBytes bytes).Spelt := by
  rw [ofBytes, Json.Spelt]
  induction bytes.toList with
  | nil => simp [Json.ItemsSpelt]
  | cons byte rest ih => simp [Json.ItemsSpelt, ofByte, Json.ofNat, Json.Spelt, ih]

/-- A snapshot has no number but integers. -/
theorem spelt_encode (machine : Machine) : (encode machine).Spelt := by
  simp [encode, Json.Spelt, Json.MembersSpelt, spelt_ofBytes, ofByte, Json.ofNat]

/-- **A snapshot is read back from its text**, whatever the layout. -/
theorem ofText?_text (layout : Layout) (machine : Machine) :
    ofText? (text layout machine) = some machine := by
  simp [ofText?, text, Json.read?_print layout (spelt_encode machine), decode_encode]

/-- A number is no machine, and neither is an array with too few fields. -/
example : ofText? "244" = none ∧ ofText? "[[[]], 0]" = none := by decide +kernel

end ByteMachine.Snapshot

namespace ByteMachine.Machine

open Json (Layout)

/-! ## Checkpoints on the way -/

/-- The machine after checkpoints, each in one of the given layouts: it is saved as a text and
    replaced by what the text is read as. -/
def checkpoint? (layouts : List Layout) (machine : Machine) : Option Machine :=
  layouts.foldlM (fun machine layout => Snapshot.ofText? (Snapshot.text layout machine)) machine

/-- A machine comes out of checkpoints as it went in. -/
theorem checkpoint?_eq (layouts : List Layout) (machine : Machine) :
    machine.checkpoint? layouts = some machine := by
  induction layouts with
  | nil => rfl
  | cons layout rest ih =>
    rw [checkpoint?, List.foldlM_cons, Snapshot.ofText?_text]
    exact ih

/-- The replies to steps one after the other, whether they succeed or not. -/
def replies : Nat → Machine → Sink → List (Reply Unit)
  | 0, _, _ => []
  | count + 1, machine, sink =>
    let reply := machine.step sink
    reply :: replies count reply.machine reply.sink

/-- The replies to steps with checkpoints before each of them, as the plan has them for the
    number of steps that are left. -/
def repliesVia (plan : Nat → List Layout) : Nat → Machine → Sink → Option (List (Reply Unit))
  | 0, _, _ => some []
  | count + 1, machine, sink => do
    let machine ← machine.checkpoint? (plan (count + 1))
    let reply := machine.step sink
    let later ← repliesVia plan count reply.machine reply.sink
    return reply :: later

/-- A run with checkpoints before each step and at the end of the limit, as the plan has them
    for the number of steps that are left. -/
def runForVia (plan : Nat → List Layout) : Nat → Machine → Sink → Option Run
  | 0, machine, sink => do
    let machine ← machine.checkpoint? (plan 0)
    return ⟨machine, sink, if machine.running then none else some .halted⟩
  | limit + 1, machine, sink => do
    let machine ← machine.checkpoint? (plan (limit + 1))
    if machine.running then
      match machine.step sink with
      | ⟨machine, sink, .ok ()⟩ => runForVia plan limit machine sink
      | ⟨machine, sink, .error fault⟩ => return machine.stop sink fault
    else return ⟨machine, sink, some .halted⟩

variable (plan : Nat → List Layout)

theorem repliesVia_eq (count : Nat) (machine : Machine) (sink : Sink) :
    repliesVia plan count machine sink = some (replies count machine sink) := by
  induction count generalizing machine sink with
  | zero => rfl
  | succ count ih => simp [repliesVia, replies, checkpoint?_eq, ih]

theorem runForVia_eq (limit : Nat) (machine : Machine) (sink : Sink) :
    runForVia plan limit machine sink = some (machine.runFor limit sink) := by
  induction limit generalizing machine sink with
  | zero => simp [runForVia, runFor, checkpoint?_eq]
  | succ limit ih =>
    simp only [runForVia, runFor, checkpoint?_eq, Option.bind_eq_bind, Option.bind_some]
    split
    · rcases machine.step sink with ⟨next, out, fault | ⟨⟩⟩
      · rfl
      · exact ih next out
    · rfl

/-- **Checkpoints are invisible**: each machine is read back from its text, compact or over
    several lines, and with any checkpoints on the way each step has the same reply and each
    run the same end. -/
theorem checkpoints_invisible :
    (∀ machine : Machine,
      Snapshot.ofText? (Snapshot.encode machine).compact = some machine ∧
      Snapshot.ofText? (Snapshot.encode machine).pretty = some machine) ∧
    ∀ (plan : Nat → List Layout) (machine : Machine) (sink : Sink) (limit : Nat),
      repliesVia plan limit machine sink = some (machine.replies limit sink) ∧
      runForVia plan limit machine sink = some (machine.runFor limit sink) := by
  constructor
  · intro machine
    rw [← Snapshot.text_compact, ← Snapshot.text_indented]
    exact ⟨Snapshot.ofText?_text .compact machine, Snapshot.ofText?_text .indented machine⟩
  · intro plan machine sink limit
    exact ⟨repliesVia_eq plan limit machine sink, runForVia_eq plan limit machine sink⟩

end ByteMachine.Machine
