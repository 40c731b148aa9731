import ByteMachine.Machine.Basic
import ByteMachine.Proofs.Hexadecimal
/-!
# What a trace line shows

A trace line is a row of words with a space between each two: the program counter, which may have
any number of digits, the flags, three cells or the dashes in their place, and the registers, with
bars between these groups. No word has a space in it, so the line is taken apart into its words
again, and each word belongs to one value only.

The line of a machine shows the cells from its program counter on. Their addresses are sums of 64
bits: at the very end of these numbers they start again at zero, or break the computation off where
sums are checked, and then the line is not about the cells that it should be about.

## Main definitions

- `Trace.words`: the words of a line.

## Main statements

- `Trace.splitOn_text`: a line is taken apart into its words.
- `Trace.eq_of_words_eq`: the words are those of one trace only.
- `Trace.line_loses_nothing`: a line shows all of its trace, and the trace of a machine shows the
  cells that there are, as long as their addresses fit in 64 bits.
-/

namespace ByteMachine

open Numeral

namespace Trace

/-! ## Words -/

/-- The word for a cell: its two digits, or dashes if there is no such cell. -/
def cellWord : Option UInt8 → List Char
  | some value => twoDigits value.toNat
  | none => ['-', '-']

/-- The words of the line. -/
def words (trace : Trace) : List (List Char) :=
  ['T', 'R', 'A', 'C', 'E', ':'] :: padded 16 2 trace.pc :: ['|'] ::
    twoDigits trace.flags.toNat :: ['|'] ::
      (trace.cells.toList.map cellWord ++
        ['|'] :: trace.registers.cells.toList.map fun value => cellWord (some value))

/-- No byte has dashes for its digits. -/
theorem cellWord_some_ne (value : UInt8) : cellWord (some value) ≠ ['-', '-'] := by
  intro hdashes
  have hvalue := value.toNat_lt
  have hhigh : value.toNat / 16 < 16 := by omega
  exact hexDigit_ne hhigh (by decide) (List.cons.inj hdashes).1

theorem cellWord_inj {cell other : Option UInt8} (h : cellWord cell = cellWord other) :
    cell = other := by
  match cell, other with
  | none, none => rfl
  | none, some value => exact absurd h.symm (cellWord_some_ne value)
  | some value, none => exact absurd h (cellWord_some_ne value)
  | some value, some byte =>
    rw [UInt8.toNat_inj.mp (twoDigits_inj value.toNat_lt byte.toNat_lt h)]

theorem space_not_mem_twoDigits (value : UInt8) : ' ' ∉ twoDigits value.toNat := by
  rw [← toList_hex_of_lt value.toNat_lt, hex, String.toList_ofList]
  exact not_mem_padded (by decide) 2 value.toNat

theorem space_not_mem_cellWord (cell : Option UInt8) : ' ' ∉ cellWord cell := by
  cases cell with
  | none => decide
  | some value => exact space_not_mem_twoDigits value

/-- Only between the words there are spaces. -/
theorem space_not_mem_words (trace : Trace) : ∀ word ∈ trace.words, ' ' ∉ word := by
  have hpc : ' ' ∉ padded 16 2 trace.pc := not_mem_padded (by decide) 2 trace.pc
  have hflags := space_not_mem_twoDigits trace.flags
  simp only [words, List.forall_mem_cons, List.forall_mem_append, List.forall_mem_map]
  exact ⟨by decide, hpc, by decide, hflags, by decide,
    fun cell _ => space_not_mem_cellWord cell, by decide,
    fun value _ => space_not_mem_cellWord (some value)⟩

/-- **The words are those of one trace only.** -/
theorem eq_of_words_eq {trace other : Trace} (h : trace.words = other.words) : trace = other := by
  simp only [words, List.cons.injEq, true_and] at h
  obtain ⟨hpc, hflags, hrest⟩ := h
  -- Both lines show three cells, so what is behind the cells begins at the same word.
  obtain ⟨hcells, hbar⟩ := List.append_inj hrest (by simp)
  obtain ⟨-, hregisters⟩ := List.cons.inj hbar
  rw [List.map_inj_right fun _ _ => cellWord_inj, Vector.toList_inj] at hcells
  rw [List.map_inj_right fun _ _ hword => Option.some.inj (cellWord_inj hword),
    Vector.toList_inj] at hregisters
  cases trace
  cases other
  congr
  · exact padded_inj hpc
  · exact UInt8.toNat_inj.mp (twoDigits_inj (UInt8.toNat_lt _) (UInt8.toNat_lt _) hflags)
  · exact congrArg Registers.mk hregisters

/-! ## Lines -/

/-- Words with a space between each two, from the first one on. -/
theorem intercalate_cons (word : List Char) (words : List (List Char)) :
    [' '].intercalate (word :: words) = word ++ words.flatMap (' ' :: ·) := by
  induction words generalizing word with
  | nil => simp
  | cons next words ih =>
    rw [List.intercalate_cons_cons, ih, List.flatMap_cons, List.append_assoc]
    rfl

theorem toList_cellText (cell : Option UInt8) : (cellText cell).toList = ' ' :: cellWord cell := by
  cases cell with
  | none => rfl
  | some value =>
    unfold cellText
    rw [String.toList_append, toList_hex_of_lt value.toNat_lt]
    rfl

/-- A group of columns is their words, each with a space before it. -/
theorem toList_columns {α : Type} (values : List α) (cell : α → Option UInt8) :
    (String.join (values.map fun value => cellText (cell value))).toList =
      (values.map fun value => cellWord (cell value)).flatMap (' ' :: ·) := by
  rw [String.toList_join, List.flatMap_map, List.flatMap_map]
  simp only [toList_cellText]

theorem toList_text (trace : Trace) : trace.text.toList = [' '].intercalate trace.words := by
  have hpc : (hex trace.pc).toList = padded 16 2 trace.pc := String.toList_ofList
  have hflags := toList_hex_of_lt trace.flags.toNat_lt
  have hcells := toList_columns trace.cells.toList id
  have hregisters := toList_columns trace.registers.cells.toList some
  unfold text words
  rw [intercalate_cons]
  -- Each group is now a piece of the list on both sides.
  simp only [id_eq] at hcells
  simp [hpc, hflags, hcells, hregisters]

/-- **A line is taken apart into its words.** -/
theorem splitOn_text (trace : Trace) : trace.text.toList.splitOn ' ' = trace.words := by
  rw [toList_text]
  exact List.splitOn_intercalate ' ' trace.space_not_mem_words (List.cons_ne_nil _ _)

theorem eq_of_text_eq {trace other : Trace} (h : trace.text = other.text) : trace = other := by
  apply eq_of_words_eq
  rw [← splitOn_text, h, splitOn_text]

/-! ## The trace of a machine -/

/-- Before the cells there are five words. -/
theorem getElem?_words_cell (trace : Trace) (k : Fin 3) :
    trace.words[5 + k.val]? = some (cellWord trace.cells[k]) := by
  have hlt : k.val < (trace.cells.toList.map cellWord).length := by simp
  rw [Nat.add_comm]
  show (trace.cells.toList.map cellWord ++ _)[k.val]? = _
  rw [List.getElem?_append_left hlt, List.getElem?_eq_getElem hlt, List.getElem_map]
  rfl

/-- The cells and the two bars around them are behind the flags. -/
theorem getElem?_words_register (trace : Trace) (i : Fin 8) :
    trace.words[9 + i.val]? = some (cellWord (some trace.registers.cells[i])) := by
  have hcells : (trace.cells.toList.map cellWord).length = 3 := by simp
  have hlt : i.val < trace.registers.cells.toList.length := by simp
  rw [Nat.add_comm]
  show (trace.cells.toList.map cellWord ++ _)[i.val + 4]? = _
  rw [List.getElem?_append_right (by omega), hcells]
  show (trace.registers.cells.toList.map _)[i.val]? = _
  rw [List.getElem?_map, List.getElem?_eq_getElem hlt]
  rfl

/-- Each cell of a trace is what is read at its address. -/
theorem getElem_cells_trace (machine : Machine) (k : Fin 3) :
    machine.trace.cells[k] = (machine.memory.read (machine.addressAt k)).toOption := by
  match k with
  | 0 => rfl
  | 1 => rfl
  | 2 => rfl

/-- An address that fits in 64 bits is behind memory, or its cell is shown. -/
theorem getElem_cells_trace_of_lt {machine : Machine} {k : Fin 3}
    (hfits : machine.pc.toNat + k < UInt64.size) :
    machine.trace.cells[k] =
      if h : machine.pc.toNat + k < 256 then some machine.memory.cells[machine.pc.toNat + k]
      else none := by
  rw [getElem_cells_trace, Machine.addressAt_of_lt hfits]
  unfold Memory.read
  -- Reading fails exactly behind the end, and a failed read is no cell.
  split
  · rfl
  · rfl

/-- Where all sums fit, it makes no difference that they are checked. -/
theorem checkedTrace?_of_lt {machine : Machine} (h : machine.pc.toNat + 2 < UInt64.size) :
    machine.checkedTrace? = some machine.trace := by
  have hzero : machine.pc.toNat + 0 < UInt64.size := by omega
  have hone : machine.pc.toNat + 1 < UInt64.size := by omega
  unfold Machine.checkedTrace?
  simp only [if_pos hzero, if_pos hone, if_pos h, Option.bind_eq_bind, Option.bind_some]
  rfl

/-- **A trace line loses nothing.** Two traces, with any program counters, have the same line
    exactly if they are the same. The trace of a machine has its program counter, flags and
    registers, and for each of the cells from the program counter on, as long as its address fits
    in 64 bits, the byte that is there, as two digits, or the dashes, exactly behind the end of
    memory. If all three addresses fit, the trace is the same where sums are checked. -/
theorem line_loses_nothing :
    (∀ trace other : Trace, trace.text = other.text ↔ trace = other) ∧
    ∀ machine : Machine,
      machine.trace.pc = machine.pc.toNat ∧ machine.trace.flags = machine.flags.bits ∧
      machine.trace.registers = machine.registers ∧
      (∀ k : Fin 3, machine.pc.toNat + k < UInt64.size → machine.trace.cells[k] =
        if h : machine.pc.toNat + k < 256 then some machine.memory.cells[machine.pc.toNat + k]
        else none) ∧
      (machine.pc.toNat + 2 < UInt64.size → machine.checkedTrace? = some machine.trace) ∧
      let word (index : Nat) := (machine.trace.text.toList.splitOn ' ')[index]?
      word 1 = some (padded 16 2 machine.pc.toNat) ∧
      word 3 = some (twoDigits machine.flags.bits.toNat) ∧
      (∀ k : Fin 3, machine.pc.toNat + k < UInt64.size → word (5 + k) =
        if h : machine.pc.toNat + k < 256 then
          some (twoDigits machine.memory.cells[machine.pc.toNat + k].toNat)
        else some ['-', '-']) ∧
      ∀ i : Fin 8, word (9 + i) = some (twoDigits machine.registers.cells[i].toNat) := by
  refine ⟨fun trace other => ⟨eq_of_text_eq, congrArg text⟩, ?_⟩
  intro machine
  refine ⟨rfl, rfl, rfl, fun _ => getElem_cells_trace_of_lt, checkedTrace?_of_lt, ?_⟩
  intro word
  -- What is between the spaces are the words, so each place is looked up there.
  have hword (index : Nat) : word index = machine.trace.words[index]? := by
    unfold word
    rw [splitOn_text]
  refine ⟨hword 1, hword 3, ?_, ?_⟩
  · intro k hfits
    rw [hword, getElem?_words_cell, getElem_cells_trace_of_lt hfits]
    split
    · rfl
    · rfl
  · intro i
    rw [hword, getElem?_words_register]
    rfl

/-- A machine right behind memory, whose line has three digits and three pairs of dashes. -/
theorem line_loses_nothing_behind_memory :
    let machine : Machine := { Machine.initial with pc := 256 }
    (∀ k : Fin 3, machine.pc.toNat + k < UInt64.size ∧ machine.trace.cells[k] = none) ∧
      machine.checkedTrace? = some machine.trace ∧
      (machine.trace.text.toList.splitOn ' ')[1]? = some ['1', '0', '0'] := by
  intro machine
  obtain ⟨-, hmachines⟩ := line_loses_nothing
  obtain ⟨-, -, -, hcells, hchecked, hpc, -⟩ := hmachines machine
  refine ⟨?_, hchecked (by decide), hpc.trans (by decide +kernel)⟩
  intro k
  have hfits : machine.pc.toNat + k < UInt64.size := by
    revert k
    decide
  have hbehind : ¬ machine.pc.toNat + k < 256 := Nat.not_lt.mpr (Nat.le_add_right 256 k)
  exact ⟨hfits, (hcells k hfits).trans (dif_neg hbehind)⟩

/-- At the greatest program counter two of the three addresses do not fit in 64 bits. They start
    again at zero, so the line shows the first two cells of memory where there should be dashes;
    where sums are checked there is no trace at all. -/
theorem trace_wraps_around :
    let machine : Machine := { Machine.initial with pc := 0xFFFFFFFFFFFFFFFF }
    ¬ (∀ k : Fin 3, machine.trace.cells[k] =
      if h : machine.pc.toNat + k < 256 then some machine.memory.cells[machine.pc.toNat + k]
      else none) ∧
    machine.trace.text =
      "TRACE: FFFFFFFFFFFFFFFF | 00 | -- 00 00 | 00 00 00 00 00 00 00 F4" ∧
    machine.checkedTrace? = none := by
  intro machine
  refine ⟨?_, by decide +kernel, by decide +kernel⟩
  intro hall
  have hbehind : ¬ machine.pc.toNat + (1 : Fin 3) < 256 := by decide +kernel
  have hsecond : machine.trace.cells[(1 : Fin 3)] = some 0 := by decide +kernel
  rw [hall 1, dif_neg hbehind] at hsecond
  cases hsecond

end Trace

end ByteMachine
