import ByteMachine.Memory
/-!
# Lists with a capacity

A list of numbers, topmost first, that numbers are put on and taken from as long as it
is not full and not empty. Beside it stands a stretch of memory read as such a list.

## Main statements

- `Lifo.length_le_of_foldlM`, `Lifo.count_of_foldlM`: a list never holds more than its
  capacity, and it holds what was put and not taken.
- `Memory.column_of_lt`, `Memory.column_setCell_pred`: a stretch of memory gets shorter
  and longer at its start.
-/

namespace ByteMachine

/-! ## Putting and taking -/

namespace Lifo

/-- What happens to the list. -/
inductive Action where
  /-- The number is put on top. -/
  | put (value : Nat)
  /-- The topmost number is taken, and it is this one. -/
  | take (value : Nat)
deriving DecidableEq, Repr

def Action.isPut : Action → Bool
  | put _ => true
  | take _ => false

/-- The list after an action, unless it is full, or empty, or another number is on top. -/
def act (capacity : Nat) (stack : List Nat) : Action → Option (List Nat)
  | .put value => if stack.length < capacity then some (value :: stack) else none
  | .take value =>
    match stack with
    | [] => none
    | top :: rest => if top = value then some rest else none

/-- The list after some actions from an empty one. -/
def run (capacity : Nat) (actions : List Action) : Option (List Nat) :=
  actions.foldlM (act capacity) []

variable {capacity : Nat}

theorem act_put {stack : List Nat} (h : stack.length < capacity) (value : Nat) :
    act capacity stack (.put value) = some (value :: stack) :=
  if_pos h

theorem act_take (value : Nat) (stack : List Nat) :
    act capacity (value :: stack) (.take value) = some stack :=
  if_pos rfl

/-- What an action can do: a put finds room, a take finds its number on top. -/
theorem act_cases {stack after : List Nat} {action : Action}
    (h : act capacity stack action = some after) :
    (∃ value, action = .put value ∧ stack.length < capacity ∧ after = value :: stack) ∨
      ∃ value, action = .take value ∧ stack = value :: after := by
  cases action with
  | put value =>
    left
    simp only [act] at h
    split at h
    · next hroom =>
      cases h
      exact ⟨value, rfl, hroom, rfl⟩
    · cases h
  | take value =>
    right
    cases stack with
    | nil => cases h
    | cons top rest =>
      simp only [act] at h
      split at h
      · next htop =>
        cases h
        exact ⟨value, rfl, by rw [htop]⟩
      · cases h

theorem length_le_of_act {stack after : List Nat} {action : Action}
    (hstack : stack.length ≤ capacity) (h : act capacity stack action = some after) :
    after.length ≤ capacity := by
  rcases act_cases h with ⟨value, rfl, hroom, rfl⟩ | ⟨value, rfl, rfl⟩
  · exact hroom
  · rw [List.length_cons] at hstack
    omega

theorem length_of_act {stack after : List Nat} {action : Action}
    (h : act capacity stack action = some after) :
    stack.length + (if action.isPut then 1 else 0) =
      after.length + (if action.isPut then 0 else 1) := by
  rcases act_cases h with ⟨value, rfl, _, rfl⟩ | ⟨value, rfl, rfl⟩
  · rfl
  · rfl

/-- A list never holds more than its capacity. -/
theorem length_le_of_foldlM {actions : List Action} {stack after : List Nat}
    (hstack : stack.length ≤ capacity) (h : actions.foldlM (act capacity) stack = some after) :
    after.length ≤ capacity := by
  -- By the actions, oldest first, so the list at the start has to be any.
  induction actions generalizing stack with
  | nil =>
    cases h
    exact hstack
  | cons action rest ih =>
    rw [List.foldlM_cons] at h
    obtain ⟨middle, hact, hrest⟩ := Option.bind_eq_some_iff.mp h
    exact ih (length_le_of_act hstack hact) hrest

/-- What was put is what was taken and what is still there. -/
theorem count_of_foldlM {actions : List Action} {stack after : List Nat}
    (h : actions.foldlM (act capacity) stack = some after) :
    stack.length + actions.countP Action.isPut =
      after.length + actions.countP fun action => !action.isPut := by
  induction actions generalizing stack with
  | nil =>
    cases h
    rfl
  | cons action rest ih =>
    rw [List.foldlM_cons] at h
    obtain ⟨middle, hact, hrest⟩ := Option.bind_eq_some_iff.mp h
    have hlength := length_of_act hact
    have hcount := ih hrest
    rw [List.countP_cons, List.countP_cons]
    -- A put counts on the left of the equation, a take on the right.
    cases hput : action.isPut with
    | true =>
      rw [hput] at hlength
      simp only [if_true, Bool.not_true, Bool.false_eq_true, if_false] at hlength ⊢
      omega
    | false =>
      rw [hput] at hlength
      simp only [if_true, Bool.not_false, Bool.false_eq_true, if_false] at hlength ⊢
      omega

theorem foldlM_singleton {stack after : List Nat} {action : Action}
    (h : act capacity stack action = some after) :
    [action].foldlM (act capacity) stack = some after := by
  rw [List.foldlM_cons, h]
  rfl

/-- Runs go on from the list that they have reached. -/
theorem run_append {actions : List Action} {stack : List Nat}
    (h : run capacity actions = some stack) (more : List Action) :
    run capacity (actions ++ more) = more.foldlM (act capacity) stack := by
  unfold run at h ⊢
  rw [List.foldlM_append, h]
  rfl

end Lifo

/-! ## A stretch of memory as a list -/

/-- The cells from one address up to another, as numbers. -/
def Memory.column (memory : Memory) (start stop : Nat) : List Nat :=
  (List.range' start (stop - start)).map fun address =>
    (memory.cell (UInt8.ofNat address)).toNat

theorem Memory.length_column (memory : Memory) (start stop : Nat) :
    (memory.column start stop).length = stop - start := by
  unfold column
  rw [List.length_map, List.length_range']

theorem Memory.column_self (memory : Memory) (start : Nat) : memory.column start start = [] := by
  unfold column
  rw [Nat.sub_self]
  rfl

theorem Memory.column_of_lt (memory : Memory) {start stop : Nat} (h : start < stop) :
    memory.column start stop =
      (memory.cell (UInt8.ofNat start)).toNat :: memory.column (start + 1) stop := by
  have hlength : stop - start = (stop - (start + 1)) + 1 := by omega
  unfold column
  rw [hlength, List.range'_succ, List.map_cons]

/-- A list of cells only depends on those cells. -/
theorem Memory.column_congr {memory other : Memory} {start stop : Nat}
    (h : ∀ address, start ≤ address → address < stop →
      memory.cell (UInt8.ofNat address) = other.cell (UInt8.ofNat address)) :
    memory.column start stop = other.column start stop := by
  unfold column
  apply List.map_congr_left
  intro address hmem
  obtain ⟨hstart, hstop⟩ := List.mem_range'_1.mp hmem
  rw [h address hstart (by omega)]

/-- A byte stored right before a column makes the column longer. -/
theorem Memory.column_setCell_pred (memory : Memory) {pointer : UInt8} (value : UInt8)
    {stop : Nat} (hpos : 0 < pointer.toNat) (hle : pointer.toNat ≤ stop) (hstop : stop ≤ 256) :
    (memory.setCell (pointer - 1) value).column (pointer - 1).toNat stop =
      value.toNat :: memory.column pointer.toNat stop := by
  have hone : (1 : UInt8) ≤ pointer := UInt8.le_iff_toNat_le.mpr hpos
  have hpred : (pointer - 1).toNat = pointer.toNat - 1 := UInt8.toNat_sub_of_le pointer 1 hone
  rw [column_of_lt _ (by omega), UInt8.ofNat_toNat, cell_setCell, if_pos rfl]
  have hnext : (pointer - 1).toNat + 1 = pointer.toNat := by omega
  rw [hnext]
  -- The new byte comes first; the cells behind it are other cells.
  congr 1
  apply column_congr
  intro address hstart hend
  have hne : pointer - 1 ≠ UInt8.ofNat address := by
    intro heq
    have hnat := congrArg UInt8.toNat heq
    rw [hpred, UInt8.toNat_ofNat', Nat.mod_eq_of_lt (by omega)] at hnat
    omega
  rw [cell_setCell, if_neg hne]

end ByteMachine
