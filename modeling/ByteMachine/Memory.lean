import ByteMachine.Fault
/-!
# Memory

The machine's memory: 256 cells of one byte. A byte always addresses a cell, so
`cell` and `setCell` are total on byte addresses; `read` and `write` take any
address and refuse those from 256 on.
-/

namespace ByteMachine

/-- The cells of memory, by address. -/
structure Memory where
  cells : Vector UInt8 256
deriving DecidableEq, Repr

namespace Memory

/-- The number of cells. -/
def capacity : Nat := 256

/-- Memory in which every cell holds zero. -/
def blank : Memory := ⟨Vector.replicate 256 0⟩

instance : Inhabited Memory := ⟨blank⟩

/-- The content of the cell at a byte address. -/
def cell (memory : Memory) (address : UInt8) : UInt8 :=
  have := address.toNat_lt
  memory.cells[address.toNat]

/-- Memory with the cell at a byte address changed. -/
def setCell (memory : Memory) (address value : UInt8) : Memory :=
  have := address.toNat_lt
  ⟨memory.cells.set address.toNat value⟩

/-- The content of the cell at any address, outside memory a fault. -/
def read (memory : Memory) (address : Nat) : Except Fault UInt8 :=
  if h : address < 256 then .ok memory.cells[address]
  else .error (.memoryAddress address)

/-- Memory with the cell at any address changed, outside memory a fault. -/
def write (memory : Memory) (address : Nat) (value : UInt8) : Except Fault Memory :=
  if h : address < 256 then .ok ⟨memory.cells.set address value⟩
  else .error (.memoryAddress address)

/-- Memory with the given bytes in its first cells; the other cells stay, and
    bytes beyond the last cell are dropped. -/
def overlay (memory : Memory) (bytes : List UInt8) : Memory :=
  ⟨memory.cells.mapIdx fun address old => bytes.getD address old⟩

/-- Memory with the given bytes in its first cells, unless there are too many. -/
def load (memory : Memory) (bytes : List UInt8) : Except Fault Memory :=
  if bytes.length ≤ capacity then .ok (memory.overlay bytes)
  else .error (.memoryAddress capacity)

/-! ## Cells after a change -/

/-- Two memories with the same cells are equal. -/
theorem ext_cell {m n : Memory} (h : ∀ address, m.cell address = n.cell address) :
    m = n := by
  obtain ⟨m⟩ := m
  obtain ⟨n⟩ := n
  congr 1
  apply Vector.ext
  intro i hi
  have := h (UInt8.ofNat i)
  simpa [cell, Nat.mod_eq_of_lt hi] using this

@[simp] theorem cell_setCell (memory : Memory) (address other value : UInt8) :
    (memory.setCell address value).cell other
      = if address = other then value else memory.cell other := by
  simp only [cell, setCell, Vector.getElem_set, UInt8.toNat_inj]

@[simp] theorem read_toNat (memory : Memory) (address : UInt8) :
    memory.read address.toNat = .ok (memory.cell address) := by
  have := address.toNat_lt
  simp only [read, cell, show address.toNat < 256 by omega, dite_true]

theorem write_toNat (memory : Memory) (address value : UInt8) :
    memory.write address.toNat value = .ok (memory.setCell address value) := by
  have hlt : address.toNat < 256 := address.toNat_lt
  unfold write
  rw [dif_pos hlt]
  rfl

theorem read_ofNat (memory : Memory) {address : Nat} (h : address < 256) :
    memory.read address = .ok (memory.cell (UInt8.ofNat address)) := by
  simp [read, cell, h, Nat.mod_eq_of_lt h]

theorem read_of_ge (memory : Memory) {address : Nat} (h : 256 ≤ address) :
    memory.read address = .error (.memoryAddress address) := by
  simp [read, Nat.not_lt.mpr h]

theorem cell_overlay (memory : Memory) (bytes : List UInt8) (address : UInt8) :
    (memory.overlay bytes).cell address
      = bytes.getD address.toNat (memory.cell address) := by
  simp [cell, overlay]

end Memory

end ByteMachine
