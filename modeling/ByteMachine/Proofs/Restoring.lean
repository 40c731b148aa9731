import ByteMachine.Proofs.Checkpoint
import Mathlib.Data.List.Forall2
import Mathlib.Data.List.Nodup
/-!
# Which values are snapshots

A machine is restored from any value that holds the eight parts of a state, and from no other. The
value may be an object, whose members stand in any order and among others, or the array of the
parts alone; memory is given in one of these two ways again. The cells and the registers have to
be as many as the machine has, and each number has to be in the range of its field.

What a value holds is said with whole numbers here, so that the ranges are conditions and nothing
is lost where one is missed. In an object no key may stand twice: what it holds would not be clear
otherwise.

## Main definitions

- `Image`, `Image.InRange`: the parts of a state as numbers, and when they are in range.
- `Holds`: a value holds these parts, in one of the notations.

## Main statements

- `Image.inRange_iff`: what is in range belongs to a machine.
- `decode_eq_some_iff`: a machine is read from a value that holds its parts.
- `restore_accepts_states`: which values are accepted, and what each of them gives.
-/

namespace ByteMachine

/-! ## Keys -/

namespace Json

/-- No key of an object stands twice. -/
def KeysDiffer : Json → Prop
  | object members => (members.map Prod.fst).Nodup
  | _ => True

/-- The values right inside an array or an object. -/
def inside : Json → List Json
  | array items => items
  | object members => members.map Prod.snd
  | _ => []

/-- No key stands twice in the value, nor in one right inside it. -/
def Unambiguous (value : Json) : Prop :=
  ∀ part ∈ value :: value.inside, part.KeysDiffer

/-- With different keys, the member with a key is the one that is found under it. -/
theorem member?_eq_some_iff {members : List (String × Json)}
    (h : (members.map Prod.fst).Nodup) {key : String} {part : Json} :
    (object members).member? key = some part ↔ (key, part) ∈ members := by
  rw [member?, List.lookup_eq_some_iff]
  constructor
  · rintro ⟨front, back, hsplit, -⟩
    rw [← List.mem_reverse, hsplit]
    exact List.mem_append_right _ List.mem_cons_self
  · intro hmem
    obtain ⟨front, back, hsplit⟩ := List.append_of_mem (List.mem_reverse.mpr hmem)
    refine ⟨front, back, hsplit, ?_⟩
    -- A second member with the key would stand before the one that was found.
    rw [← List.nodup_reverse, ← List.map_reverse, hsplit, List.map_append, List.map_cons,
      List.nodup_middle, List.nodup_cons] at h
    intro other hother
    rw [bne_iff_ne]
    intro heq
    have hkey : key ∈ front.map Prod.fst := by
      rw [heq]
      exact List.mem_map_of_mem hother
    exact h.1 (List.mem_append_left _ hkey)

end Json

namespace Snapshot

/-! ## Fields -/

/-- `HasFields keys value parts` says that the value is an object with the parts under the keys,
    whatever else it has, or the array of just the parts. -/
inductive HasFields (keys : List String) : Json → List Json → Prop
  | object {members : List (String × Json)} {parts : List Json} :
      List.Forall₂ (fun key part => (key, part) ∈ members) keys parts →
      HasFields keys (.object members) parts
  | array {parts : List Json} : parts.length = keys.length → HasFields keys (.array parts) parts

theorem HasFields.mem_inside {keys : List String} {value : Json} {parts : List Json}
    (h : HasFields keys value parts) : ∀ part ∈ parts, part ∈ value.inside := by
  intro part hmem
  cases h with
  | array => exact hmem
  | @object members _ hall =>
    obtain ⟨index, hlt, rfl⟩ := List.mem_iff_getElem.mp hmem
    have hmember := hall.get (by rw [hall.length_eq]; exact hlt) hlt
    exact List.mem_map_of_mem (f := Prod.snd) hmember

/-- What is found for the first field stands inside the value, so its keys differ as well. -/
theorem HasFields.keysDiffer {keys : List String} {value part : Json} {others : List Json}
    (h : HasFields keys value (part :: others)) (hkeys : value.Unambiguous) : part.KeysDiffer :=
  hkeys part (List.mem_cons_of_mem _ (h.mem_inside part List.mem_cons_self))

theorem mapM_eq_some_iff {α β : Type} {f : α → Option β} {xs : List α} {ys : List β} :
    xs.mapM f = some ys ↔ List.Forall₂ (fun x y => f x = some y) xs ys := by
  induction xs generalizing ys with
  | nil => simp [eq_comm]
  | cons x rest ih =>
    simp only [List.mapM_cons, Option.bind_eq_bind, Option.bind_eq_some_iff, Option.pure_def,
      Option.some.injEq, ih, List.forall₂_cons_left_iff]
    constructor
    · rintro ⟨y, hy, others, hothers, rfl⟩
      exact ⟨y, others, hy, hothers, rfl⟩
    · rintro ⟨y, others, hy, hothers, rfl⟩
      exact ⟨y, hy, others, hothers, rfl⟩

/-- The fields are found where they stand. -/
theorem fields?_eq_some_iff {keys : List String} {value : Json} (hkeys : value.KeysDiffer)
    {parts : List Json} : fields? keys value = some parts ↔ HasFields keys value parts := by
  cases value with
  | object members =>
    have hmember (key : String) (part : Json) :
        (Json.object members).member? key = some part ↔ (key, part) ∈ members :=
      Json.member?_eq_some_iff hkeys
    simp only [fields?, mapM_eq_some_iff, hmember]
    constructor
    · exact .object
    · rintro ⟨hall⟩
      exact hall
  | array items =>
    simp only [fields?]
    constructor
    · intro h
      split at h
      · next hlength =>
        cases h
        exact .array hlength
      · cases h
    · intro h
      cases h with
      | array hlength => exact if_pos hlength
  | null | bool _ | integer _ | real _ | text _ =>
    constructor
    · intro h
      cases h
    · intro h
      cases h

/-! ## Numbers -/

theorem below?_eq_some_iff {bound n : Nat} {value : Json} :
    below? bound value = some n ↔ value = .ofNat n ∧ n < bound := by
  simp only [below?, Option.filter_eq_some_iff, decide_eq_true_eq]
  refine and_congr_left fun _ => ?_
  cases value with
  | integer value =>
    cases value with
    | ofNat m =>
      constructor
      · intro h
        exact congrArg Json.ofNat (Option.some.inj h)
      · intro h
        exact congrArg some (Int.ofNat.inj (Json.integer.inj h))
    | negSucc m => simp [Json.nat?, Json.ofNat]
  | null | bool _ | real _ | text _ | array _ | object _ => simp [Json.nat?, Json.ofNat]

theorem byte?_eq_some_iff {value : Json} {byte : UInt8} :
    byte? value = some byte ↔ value = ofByte byte := by
  constructor
  · intro h
    obtain ⟨n, hn, rfl⟩ := Option.map_eq_some_iff.mp h
    obtain ⟨rfl, hlt⟩ := below?_eq_some_iff.mp hn
    rw [ofByte, UInt8.toNat_ofNat_of_lt' hlt]
  · rintro rfl
    exact byte?_ofByte byte

theorem word?_eq_some_iff {value : Json} {word : UInt64} :
    word? value = some word ↔ value = .ofNat word.toNat := by
  constructor
  · intro h
    obtain ⟨n, hn, rfl⟩ := Option.map_eq_some_iff.mp h
    obtain ⟨rfl, hlt⟩ := below?_eq_some_iff.mp hn
    rw [UInt64.toNat_ofNat_of_lt' hlt]
  · rintro rfl
    exact word?_ofNat word

theorem bool?_eq_some_iff {value : Json} {flag : Bool} :
    value.bool? = some flag ↔ value = .bool flag := by
  cases value <;> simp [Json.bool?]

/-- Bytes are read from the array of just these bytes. -/
theorem bytes?_eq_some_iff {n : Nat} {value : Json} {bytes : Vector UInt8 n} :
    bytes? n value = some bytes ↔ value = ofBytes bytes := by
  constructor
  · intro h
    simp only [bytes?, Option.bind_eq_bind, Option.bind_eq_some_iff, mapM_eq_some_iff,
      byte?_eq_some_iff] at h
    obtain ⟨items, hitems, found, hfound, h⟩ := h
    split at h
    · next hlength =>
      cases h
      -- Each item is the one that its byte is written as.
      have hmap : items = found.map ofByte := by
        rw [← List.forall₂_eq_eq_eq, List.forall₂_map_right_iff]
        exact hfound
      cases value <;> cases hitems
      rw [hmap]
      rfl
    · cases h
  · rintro rfl
    exact bytes?_ofBytes bytes

theorem memory?_eq_some_iff {value : Json} (hkeys : value.KeysDiffer) {memory : Memory} :
    memory? value = some memory ↔ HasFields memoryKeys value [ofBytes memory.cells] := by
  rw [← fields?_eq_some_iff hkeys, memory?]
  constructor
  · intro h
    simp only [Option.bind_eq_bind, Option.bind_eq_some_iff] at h
    obtain ⟨parts, hparts, h⟩ := h
    split at h
    · next cells =>
      obtain ⟨bytes, hbytes, h⟩ := Option.bind_eq_some_iff.mp h
      cases h
      rw [hparts, bytes?_eq_some_iff.mp hbytes]
    · cases h
  · intro h
    simp [h, bytes?_ofBytes]

/-! ## Images -/

/-- The parts of a state as numbers, with no bounds on them. -/
structure Image where
  cells : List Int
  registers : List Int
  flags : Int
  pc : Int
  ir : Int
  stackLimit : Int
  running : Bool
  cycles : Int

/-- A value holds the parts of the image: it is an object or an array of them, and so is the part
    for memory. -/
def Holds (value : Json) (image : Image) : Prop :=
  ∃ memory, HasFields memoryKeys memory [.array (image.cells.map .integer)] ∧
    HasFields stateKeys value [
      memory, .array (image.registers.map .integer), .integer image.flags, .integer image.pc,
      .integer image.ir, .integer image.stackLimit, .bool image.running, .integer image.cycles]

/-- The number is one of a byte. -/
def IsByte (n : Int) : Prop := 0 ≤ n ∧ n ≤ 255

/-- The number is one of 64 bits: the greatest of them is one less than `2 ^ 64`. -/
def IsWord (n : Int) : Prop := 0 ≤ n ∧ n ≤ 18446744073709551615

namespace Image

/-- There are as many cells and registers as in a machine, and all numbers are in range. -/
structure InRange (image : Image) : Prop where
  cells_length : image.cells.length = 256
  cells : ∀ n ∈ image.cells, IsByte n
  registers_length : image.registers.length = 8
  registers : ∀ n ∈ image.registers, IsByte n
  flags : IsByte image.flags
  pc : IsWord image.pc
  ir : IsByte image.ir
  stackLimit : IsByte image.stackLimit
  cycles : IsWord image.cycles

/-- The object that the parts are written as: all keys in order, and memory as an object too. -/
def canonical (image : Image) : Json :=
  .object [
    ("memory", .object [("cells", .array (image.cells.map .integer))]),
    ("registers", .array (image.registers.map .integer)),
    ("flags", .integer image.flags),
    ("pc", .integer image.pc),
    ("ir", .integer image.ir),
    ("stack_limit", .integer image.stackLimit),
    ("running", .bool image.running),
    ("cycles", .integer image.cycles)]

/-- Bytes as numbers. -/
def ofBytes {n : Nat} (bytes : Vector UInt8 n) : List Int :=
  bytes.toList.map fun byte => (byte.toNat : Int)

/-- The image of a machine. -/
def ofMachine (machine : Machine) : Image where
  cells := ofBytes machine.memory.cells
  registers := ofBytes machine.registers.cells
  flags := machine.flags.bits.toNat
  pc := machine.pc.toNat
  ir := machine.ir.toNat
  stackLimit := machine.stackLimit.toNat
  running := machine.running
  cycles := machine.cycles.toNat

/-! ## Images of machines -/

theorem isByte_toNat (byte : UInt8) : IsByte byte.toNat := by
  have := byte.toNat_lt
  unfold IsByte
  omega

theorem isWord_toNat (word : UInt64) : IsWord word.toNat := by
  have := word.toNat_lt
  unfold IsWord
  omega

theorem exists_byte {n : Int} (h : IsByte n) : ∃ byte : UInt8, (byte.toNat : Int) = n := by
  unfold IsByte at h
  have hlt : n.toNat < UInt8.size := by
    rw [show UInt8.size = 256 from rfl]
    omega
  refine ⟨UInt8.ofNat n.toNat, ?_⟩
  rw [UInt8.toNat_ofNat_of_lt' hlt]
  omega

theorem exists_word {n : Int} (h : IsWord n) : ∃ word : UInt64, (word.toNat : Int) = n := by
  unfold IsWord at h
  have hlt : n.toNat < UInt64.size := by
    rw [show UInt64.size = 2 ^ 64 from rfl]
    omega
  refine ⟨UInt64.ofNat n.toNat, ?_⟩
  rw [UInt64.toNat_ofNat_of_lt' hlt]
  omega

theorem isByte_of_mem_ofBytes {n : Nat} (bytes : Vector UInt8 n) :
    ∀ value ∈ ofBytes bytes, IsByte value := by
  intro value hmem
  obtain ⟨byte, -, rfl⟩ := List.mem_map.mp hmem
  exact isByte_toNat byte

@[simp] theorem length_ofBytes {n : Nat} (bytes : Vector UInt8 n) : (ofBytes bytes).length = n := by
  simp [ofBytes]

theorem exists_bytes {n : Nat} {values : List Int} (hlength : values.length = n)
    (hbytes : ∀ value ∈ values, IsByte value) :
    ∃ bytes : Vector UInt8 n, ofBytes bytes = values := by
  subst hlength
  induction values with
  | nil => exact ⟨⟨#[], rfl⟩, rfl⟩
  | cons value rest ih =>
    obtain ⟨hvalue, hrest⟩ := List.forall_mem_cons.mp hbytes
    obtain ⟨byte, rfl⟩ := exists_byte hvalue
    obtain ⟨bytes, hbytes⟩ := ih hrest
    refine ⟨⟨(byte :: bytes.toList).toArray, by simp⟩, ?_⟩
    rw [ofBytes] at hbytes
    simp [ofBytes, hbytes]

/-- **What is in range belongs to a machine**, and only that. -/
theorem inRange_iff {image : Image} : image.InRange ↔ ∃ machine, ofMachine machine = image := by
  constructor
  · intro h
    obtain ⟨cells, hcells⟩ := exists_bytes h.cells_length h.cells
    obtain ⟨registers, hregisters⟩ := exists_bytes h.registers_length h.registers
    obtain ⟨flags, hflags⟩ := exists_byte h.flags
    obtain ⟨pc, hpc⟩ := exists_word h.pc
    obtain ⟨ir, hir⟩ := exists_byte h.ir
    obtain ⟨stackLimit, hlimit⟩ := exists_byte h.stackLimit
    obtain ⟨cycles, hcycles⟩ := exists_word h.cycles
    refine ⟨{ memory := ⟨cells⟩, registers := ⟨registers⟩, flags := ⟨flags⟩, pc, ir, stackLimit,
              running := image.running, cycles }, ?_⟩
    simp only [ofMachine, hcells, hregisters, hflags, hpc, hir, hlimit, hcycles]
  · rintro ⟨machine, rfl⟩
    exact ⟨length_ofBytes _, isByte_of_mem_ofBytes _, length_ofBytes _, isByte_of_mem_ofBytes _,
      isByte_toNat _, isWord_toNat _, isByte_toNat _, isByte_toNat _, isWord_toNat _⟩

end Image

/-! ## Reading and writing states -/

theorem array_ofBytes {n : Nat} (bytes : Vector UInt8 n) :
    Json.array ((Image.ofBytes bytes).map .integer) = ofBytes bytes := by
  rw [Image.ofBytes, List.map_map]
  rfl

/-- A machine is written as the object for its image. -/
theorem encode_eq (machine : Machine) : encode machine = (Image.ofMachine machine).canonical := by
  simp only [Image.canonical, Image.ofMachine, array_ofBytes]
  rfl

/-- **A machine is read from a value that holds its parts**, and from no other. -/
theorem decode_eq_some_iff {value : Json} (hkeys : value.Unambiguous) {machine : Machine} :
    decode value = some machine ↔ Holds value (Image.ofMachine machine) := by
  have hvalue : value.KeysDiffer := hkeys value List.mem_cons_self
  simp only [Holds, Image.ofMachine, array_ofBytes]
  constructor
  · intro h
    simp only [decode, Option.bind_eq_bind, Option.bind_eq_some_iff,
      fields?_eq_some_iff hvalue] at h
    obtain ⟨parts, hparts, h⟩ := h
    split at h
    · next memory registers flags pc ir stackLimit running cycles =>
      simp only [Option.bind_eq_some_iff, bytes?_eq_some_iff, byte?_eq_some_iff,
        word?_eq_some_iff, bool?_eq_some_iff, memory?_eq_some_iff (hparts.keysDiffer hkeys)] at h
      obtain ⟨found, hfound, _, rfl, _, rfl, _, rfl, _, rfl, _, rfl, _, rfl, _, rfl, h⟩ := h
      cases h
      exact ⟨memory, hfound, hparts⟩
    · cases h
  · rintro ⟨memory, hfound, hparts⟩
    have hcells := (memory?_eq_some_iff (hparts.keysDiffer hkeys)).mpr hfound
    have hfields := (fields?_eq_some_iff hvalue).mpr hparts
    have hbyte (byte : UInt8) : byte? (.integer byte.toNat) = some byte := byte?_ofByte byte
    have hword (word : UInt64) : word? (.integer word.toNat) = some word := word?_ofNat word
    simp [decode, hfields, hcells, bytes?_ofBytes, hbyte, hword, Json.bool?]

/-- No key stands twice in what a machine is written as. -/
theorem unambiguous_encode (machine : Machine) : (encode machine).Unambiguous := by
  simp [Json.Unambiguous, Json.inside, encode, Json.KeysDiffer, ofBytes, ofByte, Json.ofNat]

/-- What a machine is written as holds its parts. -/
theorem holds_encode (machine : Machine) : Holds (encode machine) (Image.ofMachine machine) :=
  (decode_eq_some_iff (unambiguous_encode machine)).mp (decode_encode machine)

/-! ## Restoring -/

theorem HasFields.unique {keys : List String} {value : Json} {parts others : List Json}
    (hkeys : value.KeysDiffer) (h : HasFields keys value parts)
    (hother : HasFields keys value others) : parts = others := by
  rw [← fields?_eq_some_iff hkeys] at h hother
  exact Option.some.inj (h.symm.trans hother)

theorem map_integer_injective : Function.Injective (List.map Json.integer) :=
  List.map_injective_iff.mpr fun _ _ => Json.integer.inj

/-- A value holds the parts of one state only. -/
theorem Holds.unique {value : Json} {image other : Image} (hkeys : value.Unambiguous)
    (h : Holds value image) (hother : Holds value other) : image = other := by
  obtain ⟨memory, hcells, hfields⟩ := h
  obtain ⟨_, hcells', hfields'⟩ := hother
  have hparts := hfields.unique (hkeys value List.mem_cons_self) hfields'
  simp only [List.cons.injEq, Json.array.injEq, Json.integer.injEq, Json.bool.injEq] at hparts
  obtain ⟨rfl, hregisters, hflags, hpc, hir, hlimit, hrunning, hcycles, -⟩ := hparts
  -- The same holds one level below, in the part for memory.
  have hmap := hcells.unique (hfields.keysDiffer hkeys) hcells'
  simp only [List.cons.injEq, Json.array.injEq, and_true] at hmap
  have hcells := map_integer_injective hmap
  have hregisters := map_integer_injective hregisters
  cases image
  cases other
  simp_all only

/-- The machine after it has been told to take over the state that a value holds. -/
def restore (machine : Machine) (value : Json) : Machine :=
  (decode value).getD machine

/-- **Exactly the states of a machine are restored.** A value is accepted exactly if it holds the
    parts of a state, in either notation at either level, with the right numbers of cells and
    registers and all numbers in range. The machine that comes out has just these parts, whatever
    machine there was before, and is written as the object for them. Two values with the same
    parts give the same machine. A value that is not accepted leaves the machine as it was. -/
theorem restore_accepts_states {value : Json} (hkeys : value.Unambiguous) :
    ((∃ machine, decode value = some machine) ↔ ∃ image, Holds value image ∧ image.InRange) ∧
    (∀ machine, decode value = some machine →
      (∀ image, Holds value image ↔ image = Image.ofMachine machine) ∧
      encode machine = (Image.ofMachine machine).canonical ∧
      ∀ old, restore old value = machine) ∧
    (∀ other : Json, other.Unambiguous →
      ∀ image, Holds value image → Holds other image → decode other = decode value) ∧
    ((¬ ∃ image, Holds value image ∧ image.InRange) → ∀ old, restore old value = old) := by
  have haccepted : (∃ machine, decode value = some machine) ↔
      ∃ image, Holds value image ∧ image.InRange := by
    simp only [decode_eq_some_iff hkeys, Image.inRange_iff]
    constructor
    · rintro ⟨machine, hholds⟩
      exact ⟨_, hholds, machine, rfl⟩
    · rintro ⟨_, hholds, machine, rfl⟩
      exact ⟨machine, hholds⟩
  refine ⟨haccepted, ?_, ?_, ?_⟩
  · intro machine hdecode
    have hholds := (decode_eq_some_iff hkeys).mp hdecode
    refine ⟨fun image => ⟨fun h => h.unique hkeys hholds, ?_⟩, encode_eq machine, fun old => ?_⟩
    · rintro rfl
      exact hholds
    · rw [restore, hdecode, Option.getD_some]
  · intro other hother image hvalue himage
    -- Both are read as the machine with this image, if there is one.
    ext1 machine
    rw [decode_eq_some_iff hother, decode_eq_some_iff hkeys]
    constructor
    · intro h
      exact himage.unique hother h ▸ hvalue
    · intro h
      exact hvalue.unique hkeys h ▸ himage
  · intro hnone old
    have hdecode : decode value = none := by
      rw [Option.eq_none_iff_forall_ne_some]
      exact fun machine h => hnone (haccepted.mp ⟨machine, h⟩)
    rw [restore, hdecode, Option.getD_none]

/-- A machine that has stopped. -/
def stopped : Machine :=
  { pc := 2, ir := 1, stackLimit := 3, running := false, cycles := 3 }

/-- The machine as an object that does not look like the one it is written as: the members stand
    in another order, one of them is not asked for, and memory is an array. -/
def rearranged : Json :=
  .object [
    ("running", .bool false), ("note", .null), ("cycles", .integer 3), ("pc", .integer 2),
    ("ir", .integer 1), ("flags", .integer 0), ("stack_limit", .integer 3),
    ("registers", ofBytes Registers.initial.cells),
    ("memory", .array [ofBytes Memory.blank.cells])]

theorem restore_accepts_states_rearranged :
    rearranged.Unambiguous ∧ Holds rearranged (Image.ofMachine stopped) ∧
      ∀ old, restore old rearranged = stopped := by
  have hkeys : rearranged.Unambiguous := by
    simp [Json.Unambiguous, Json.inside, rearranged, Json.KeysDiffer, ofBytes]
  have hholds : Holds rearranged (Image.ofMachine stopped) := by
    simp only [Holds, Image.ofMachine, array_ofBytes]
    exact ⟨_, .array rfl, .object (by simp [stateKeys, stopped])⟩
  obtain ⟨-, haccepted, hsame, -⟩ := restore_accepts_states hkeys
  have hdecode : decode rearranged = some stopped := by
    rw [← hsame (encode stopped) (unambiguous_encode stopped) _ hholds (holds_encode stopped),
      decode_encode]
  exact ⟨hkeys, hholds, (haccepted stopped hdecode).2.2⟩

end Snapshot

end ByteMachine
