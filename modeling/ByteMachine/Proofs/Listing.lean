import ByteMachine.Program.Listing
import ByteMachine.Proofs.Effects
import ByteMachine.Proofs.Hexadecimal
import Mathlib.Data.List.Forall2
/-!
# What a listing shows

The lines of a listing account for the bytes of the program, each byte once and in order,
also where no operation decodes and where the end of the program cuts an operation short.
The layout of a line is stated without the functions that print it. A text in this layout
gives its line back, so a listing belongs to one program only.

## Main statements

- `ListingLine.shows_render`: lines are printed in the layout.
- `ListingLine.eq_of_shows`: a text shows one line only.
- `Program.covers_listing`: a listing covers its program.
- `Program.disassemble_shows_every_byte`: the two together, for the texts of a listing.
-/

namespace ByteMachine

open Numeral

/-! ## The column with the bytes -/

namespace ListingLine

/-- The two digits of each byte with a space between them. -/
def column (bytes : List UInt8) : List Char :=
  [' '].intercalate (bytes.map fun byte => twoDigits byte.toNat)

theorem column_cons_cons (byte next : UInt8) (bytes : List UInt8) :
    column (byte :: next :: bytes) =
      twoDigits byte.toNat ++ [' '] ++ column (next :: bytes) := by
  unfold column
  rw [List.map_cons, List.map_cons, List.intercalate_cons_cons]

theorem toList_bytesText (bytes : List UInt8) : (bytesText bytes).toList = column bytes := by
  unfold bytesText column
  rw [String.toList_intercalate, List.map_map]
  congr 1
  apply List.map_congr_left
  intro byte _
  exact toList_hex_of_lt byte.toNat_lt

theorem length_column_add_one (byte : UInt8) (bytes : List UInt8) :
    (column (byte :: bytes)).length + 1 = 3 * (bytes.length + 1) := by
  induction bytes generalizing byte with
  | nil => rfl
  | cons next bytes ih =>
    have hrest := ih next
    rw [column_cons_cons, List.length_append, List.length_cons]
    simp only [twoDigits, List.cons_append, List.nil_append, List.length_cons, List.length_nil]
    omega

/-- Without its spaces the column is the digits of the bytes. -/
theorem filter_column (bytes : List UInt8) :
    (column bytes).filter (· ≠ ' ') = bytes.flatMap fun byte => twoDigits byte.toNat := by
  cases bytes with
  | nil => rfl
  | cons byte bytes =>
    induction bytes generalizing byte with
    | nil =>
      rw [List.flatMap_cons, List.flatMap_nil, List.append_nil]
      exact filter_twoDigits byte.toNat_lt
    | cons next bytes ih =>
      rw [column_cons_cons, List.filter_append, List.filter_append, ih,
        filter_twoDigits byte.toNat_lt, List.filter_cons_of_neg (by decide), List.filter_nil,
        List.append_nil]
      rfl

theorem flatMap_twoDigits_inj {bytes others : List UInt8}
    (h : (bytes.flatMap fun byte => twoDigits byte.toNat) =
      others.flatMap fun byte => twoDigits byte.toNat) :
    bytes = others := by
  induction bytes generalizing others with
  | nil =>
    cases others with
    | nil => rfl
    | cons other others => cases h
  | cons byte bytes ih =>
    cases others with
    | nil => cases h
    | cons other others =>
      rw [List.flatMap_cons, List.flatMap_cons] at h
      obtain ⟨hdigits, hrest⟩ := List.append_inj h rfl
      have hbyte := UInt8.toNat_inj.mp (twoDigits_inj byte.toNat_lt other.toNat_lt hdigits)
      rw [hbyte, ih hrest]

/-! ## The layout of a line -/

/-- `Shows text line` says that the text is the line in the fixed layout: the address in
    two digits, a colon and a space, the bytes in a column of eight characters, two
    spaces, and the text of the line. -/
def Shows (text : String) (line : ListingLine) : Prop :=
  ∃ fill : Nat,
    line.address < 256 ∧
    (column line.bytes).length + fill = 8 ∧
    text.toList =
      twoDigits line.address ++ [':', ' '] ++ (column line.bytes ++ List.replicate fill ' ') ++
        [' ', ' '] ++ line.text.toList

theorem shows_render {line : ListingLine} (haddress : line.address < 256)
    (hpos : 0 < line.bytes.length) (hnarrow : line.bytes.length ≤ 3) :
    Shows line.render line := by
  obtain ⟨byte, bytes, hbytes⟩ := List.exists_cons_of_length_pos hpos
  have hlength := length_column_add_one byte bytes
  rw [hbytes, List.length_cons] at hnarrow
  refine ⟨8 - (column line.bytes).length, haddress, ?_, ?_⟩
  · rw [hbytes]
    omega
  · unfold render padRight bytesWidth List.rightpad
    simp only [String.toList_append, String.toList_ofList, toList_bytesText,
      toList_hex_of_lt haddress]
    rfl

/-- A text shows one line only. -/
theorem eq_of_shows {text : String} {line other : ListingLine} (hline : Shows text line)
    (hother : Shows text other) : line = other := by
  obtain ⟨fill, haddress, hwidth, htext⟩ := hline
  obtain ⟨otherFill, hotherAddress, hotherWidth, hotherText⟩ := hother
  rw [htext] at hotherText
  -- Up to the text of a line there are fourteen characters, up to its column four.
  obtain ⟨hlayout, hrest⟩ := List.append_inj hotherText (by
    simp only [List.length_append, List.length_replicate, hwidth, hotherWidth]
    rfl)
  obtain ⟨hcolumns, -⟩ := List.append_inj' hlayout rfl
  obtain ⟨hhead, hcolumn⟩ := List.append_inj hcolumns rfl
  obtain ⟨hdigits, -⟩ := List.append_inj' hhead rfl
  have hbytes := congrArg (List.filter (· ≠ ' ')) hcolumn
  rw [List.filter_append, List.filter_append, List.filter_replicate_of_neg (by decide),
    List.filter_replicate_of_neg (by decide), List.append_nil, List.append_nil,
    filter_column, filter_column] at hbytes
  cases line
  cases other
  congr
  · exact twoDigits_inj haddress hotherAddress hdigits
  · exact flatMap_twoDigits_inj hbytes
  · exact String.toList_inj.mp hrest

/-! ## Lines one after the other -/

/-- The first line is at the given address, and each other line is at the address behind
    the bytes of the line before. -/
def Contiguous : Nat → List ListingLine → Prop
  | _, [] => True
  | address, line :: lines =>
    line.address = address ∧ Contiguous (address + line.bytes.length) lines

/-- `Covers address lines bytes` says that the lines account for the bytes, which start at
    the address. -/
structure Covers (address : Nat) (lines : List ListingLine) (bytes : List UInt8) : Prop where
  contiguous : Contiguous address lines
  bytes_eq : lines.flatMap ListingLine.bytes = bytes
  narrow : ∀ line ∈ lines, 1 ≤ line.bytes.length ∧ line.bytes.length ≤ 3

namespace Covers

theorem nil (address : Nat) : Covers address [] [] where
  contiguous := trivial
  bytes_eq := rfl
  narrow := by simp

theorem cons {address : Nat} {shown rest : List UInt8} {lines : List ListingLine} (text : String)
    (hsome : 1 ≤ shown.length) (hnarrow : shown.length ≤ 3)
    (hrest : Covers (address + shown.length) lines rest) :
    Covers address ({ address, bytes := shown, text } :: lines) (shown ++ rest) where
  contiguous := ⟨rfl, hrest.contiguous⟩
  bytes_eq := by rw [List.flatMap_cons, hrest.bytes_eq]
  narrow := by
    intro line hmem
    rcases List.mem_cons.mp hmem with rfl | hmem
    · exact ⟨hsome, hnarrow⟩
    · exact hrest.narrow line hmem

theorem eq_nil_iff {address : Nat} {lines : List ListingLine} {bytes : List UInt8}
    (h : Covers address lines bytes) : lines = [] ↔ bytes = [] := by
  rw [← h.bytes_eq, List.flatMap_eq_nil_iff]
  constructor
  · rintro rfl
    simp
  · intro hnone
    rw [List.eq_nil_iff_forall_not_mem]
    intro line hmem
    have hsome := (h.narrow line hmem).1
    rw [hnone line hmem] at hsome
    cases hsome

end Covers

end ListingLine

/-! ## The listing of a program -/

namespace Operation

theorem operandCount_of_decode {memory : Memory} {address : Nat} {operation : Operation}
    (h : decode memory address = .ok operation) :
    operation.operandCount = operation.instruction.operandCount := by
  unfold decode at h
  obtain ⟨raw, -, h⟩ := bind_eq_ok_iff.mp h
  split at h
  · cases h
  next instruction _ =>
  -- Each operand is read or taken as zero; the number of operands is that of the table.
  dsimp only at h
  split at h
  all_goals
    obtain ⟨first, -, h⟩ := bind_eq_ok_iff.mp h
    split at h
    all_goals
      obtain ⟨second, -, h⟩ := bind_eq_ok_iff.mp h
      cases h
      rfl

end Operation

namespace Program

variable (program : Program)

theorem lineAt_le (address : Nat) : (program.lineAt address).1 ≤ 3 := by
  unfold lineAt
  split
  · next operation hdecode =>
    have hcount := Operation.operandCount_of_decode hdecode
    have hle := operation.instruction.operandCount_le_two
    unfold Operation.width
    omega
  · exact Nat.le_of_ble_eq_true rfl

/-- The bytes of the line at an address. -/
def shownAt (address : Nat) : List UInt8 :=
  (program.bytes.drop address).take (program.lineAt address).1

theorem length_shownAt (address : Nat) :
    (program.shownAt address).length =
      min (program.lineAt address).1 (program.length - address) := by
  unfold shownAt
  rw [List.length_take, List.length_drop]
  rfl

theorem shownAt_append_drop (address : Nat) :
    program.shownAt address ++ program.bytes.drop (address + (program.lineAt address).1) =
      program.bytes.drop address := by
  unfold shownAt
  rw [← List.drop_drop, List.take_append_drop]

theorem listingFrom_of_ge {address : Nat} (h : program.length ≤ address) :
    program.listingFrom address = [] := by
  rw [listingFrom, if_neg (Nat.not_lt.mpr h)]

theorem listingFrom_of_lt {address : Nat} (h : address < program.length) :
    program.listingFrom address =
      { address, bytes := program.shownAt address, text := (program.lineAt address).2 } ::
        program.listingFrom (address + (program.lineAt address).1) := by
  rw [listingFrom, if_pos h]
  rfl

/-- From every address on the lines cover the rest of the program. -/
theorem covers_listingFrom (address : Nat) :
    ListingLine.Covers address (program.listingFrom address) (program.bytes.drop address) := by
  induction address using listingFrom.induct program with
  | case1 address hlt ih =>
    have hpos := program.lineAt_pos address
    have hle := program.lineAt_le address
    have hlength := program.length_shownAt address
    rw [program.listingFrom_of_lt hlt, ← program.shownAt_append_drop address]
    apply ListingLine.Covers.cons _ (by omega) (by omega)
    rw [hlength]
    by_cases hend : program.length ≤ address + (program.lineAt address).1
    · -- The line may show fewer bytes than the operation has, but then it is the last.
      rw [program.listingFrom_of_ge hend, List.drop_eq_nil_of_le hend]
      exact ListingLine.Covers.nil _
    · rw [Nat.min_eq_left (by omega)]
      exact ih
  | case2 address hge =>
    have hend := Nat.not_lt.mp hge
    rw [program.listingFrom_of_ge hend, List.drop_eq_nil_of_le hend]
    exact ListingLine.Covers.nil address

theorem address_lt_of_mem_listingFrom {address : Nat} {line : ListingLine}
    (h : line ∈ program.listingFrom address) : line.address < program.length := by
  induction address using listingFrom.induct program with
  | case1 address hlt ih =>
    rw [program.listingFrom_of_lt hlt] at h
    rcases List.mem_cons.mp h with rfl | hrest
    · exact hlt
    · exact ih hrest
  | case2 address hge =>
    rw [program.listingFrom_of_ge (Nat.not_lt.mp hge)] at h
    cases h

theorem covers_listing : ListingLine.Covers 0 program.listing program.bytes :=
  program.covers_listingFrom 0

/-- The texts of a listing show its lines, and no others. -/
theorem shows_disassemble_iff {lines : List ListingLine} :
    List.Forall₂ ListingLine.Shows program.disassemble lines ↔ lines = program.listing := by
  have hshows : List.Forall₂ ListingLine.Shows program.disassemble program.listing := by
    unfold disassemble
    rw [List.forall₂_map_left_iff, List.forall₂_same]
    intro line hmem
    obtain ⟨hsome, hnarrow⟩ := program.covers_listing.narrow line hmem
    have haddress := program.address_lt_of_mem_listingFrom hmem
    have hlength := program.length_le
    exact ListingLine.shows_render (by omega) hsome hnarrow
  constructor
  · intro hlines
    have hunique : Relator.RightUnique ListingLine.Shows := by
      intro text line other hline hother
      exact ListingLine.eq_of_shows hline hother
    exact List.right_unique_forall₂' hunique hlines hshows
  · rintro rfl
    exact hshows

/-- **A listing shows every byte of its program once.** Its texts can be read as lines in
    the fixed layout in one way only, and these lines cover the program from address zero
    on. There are no texts exactly if there are no bytes, and no other program has the same
    texts. -/
theorem disassemble_shows_every_byte (program : Program) :
    (∃ lines : List ListingLine,
      (∀ others, List.Forall₂ ListingLine.Shows program.disassemble others ↔ others = lines) ∧
      ListingLine.Covers 0 lines program.bytes) ∧
    (program.disassemble = [] ↔ program.bytes = []) ∧
    ∀ other : Program, other.disassemble = program.disassemble → other = program := by
  refine ⟨⟨program.listing, fun _ => program.shows_disassemble_iff, program.covers_listing⟩,
    ?_, ?_⟩
  · unfold disassemble
    rw [List.map_eq_nil_iff]
    exact program.covers_listing.eq_nil_iff
  · intro other hsame
    have hshows := program.shows_disassemble_iff.mpr rfl
    rw [← hsame] at hshows
    -- The texts are read as the lines of the one program and as those of the other.
    have hlines := other.shows_disassemble_iff.mp hshows
    apply Program.ext_bytes
    rw [← other.covers_listing.bytes_eq, ← program.covers_listing.bytes_eq, hlines]

/-- The last operand of a load is cut off: it counts as zero but is not shown. -/
example : (Program.mk [0x82, 0x00] (by decide)).disassemble = ["00: 82 00     LDI R0,0"] := by
  decide +kernel

end Program

end ByteMachine
