import Mathlib.Data.List.Basic

/-! # A bounded buffer at the front of an array

The cells in use are the first ones of an array of fixed size. New items go
behind them; when items leave at the front, the rest is moved down. The move is
a memory copy whose ranges may overlap, so what the copy does then is part of
the statements.
-/

variable {α : Type*} {size : Nat}

/-- The items written over an array, from the cell `dest` on. -/
def overwrite (cells : List α) (dest : Nat) (items : List α) : List α :=
  cells.take dest ++ (items ++ cells.drop (dest + items.length))

/-- Writing inside the cells keeps their number. -/
theorem length_overwrite {cells items : List α} {dest : Nat}
    (fits : dest + items.length ≤ cells.length) :
    (overwrite cells dest items).length = cells.length := by
  simp only [overwrite, List.length_append, List.length_take, List.length_drop]
  omega

/-- The cells up to the end of what is written are the old ones and the new. -/
theorem take_overwrite {cells items : List α} {dest : Nat} (inside : dest ≤ cells.length) :
    (overwrite cells dest items).take (dest + items.length) = cells.take dest ++ items := by
  have front : (cells.take dest).length = dest := List.length_take_of_le inside
  rw [overwrite, ← List.append_assoc]
  exact List.take_left' (by rw [List.length_append, front])

/-- A cell in the written range is new, every other one is old. -/
theorem getElem?_overwrite {cells items : List α} {dest : Nat} (inside : dest ≤ cells.length)
    (index : Nat) : (overwrite cells dest items)[index]? =
      if dest ≤ index ∧ index < dest + items.length then items[index - dest]?
      else cells[index]? := by
  have front : (cells.take dest).length = dest := List.length_take_of_le inside
  rw [overwrite, List.getElem?_append, front, List.getElem?_append]
  by_cases before : index < dest
  · rw [if_pos before, if_neg (by omega), List.getElem?_take_of_lt before]
  · by_cases within : index - dest < items.length
    · rw [if_neg before, if_pos within, if_pos (by omega)]
    · rw [if_neg before, if_neg within, if_neg (by omega), List.getElem?_drop]
      congr 1
      omega

/-- `memcpy` inside one array, from the cell `src` to the cell `dest`. It
changes cells of the array, never their number. -/
structure Memcpy (α : Type*) where
  copy : List α → Nat → Nat → Nat → List α
  length_copy : ∀ cells dest src count, (copy cells dest src count).length = cells.length

namespace Memcpy

/-- The cells are copied as they were before. -/
def Exact (memcpy : Memcpy α) (cells : List α) (dest src count : Nat) : Prop :=
  memcpy.copy cells dest src count = overwrite cells dest ((cells.drop src).take count)

/-- What the language promises: a copy between ranges of the array that do not
overlap is exact. -/
def Standard (memcpy : Memcpy α) : Prop :=
  ∀ cells dest src count, src + count ≤ cells.length → dest + count ≤ cells.length →
    (dest + count ≤ src ∨ src + count ≤ dest) → memcpy.Exact cells dest src count

/-- Copies that move cells down are exact, also where the ranges overlap. -/
def MovesDown (memcpy : Memcpy α) : Prop :=
  ∀ cells dest src count, src + count ≤ cells.length → dest ≤ src →
    memcpy.Exact cells dest src count

/-- One cell after the other, the first cell first. -/
def copyLoop : List α → Nat → Nat → Nat → List α
  | cells, _, _, 0 => cells
  | cells, dest, src, count + 1 =>
      copyLoop ((cells[src]?).elim cells (cells.set dest)) (dest + 1) (src + 1) count

/-- Copying one cell keeps the number of cells. -/
theorem length_set_elim (cells : List α) (dest src : Nat) :
    ((cells[src]?).elim cells (cells.set dest)).length = cells.length := by
  cases cells[src]? with
  | none => rfl
  | some item => exact List.length_set

/-- The copy that goes through the cells from the lowest. -/
def loop : Memcpy α where
  copy := copyLoop
  length_copy cells dest src count := by
    induction count generalizing cells dest src with
    | zero => rfl
    | succ count ih => rw [copyLoop, ih, length_set_elim]

/-- The loop reads no cell that it has written, unless it moves cells up into
their own range. -/
theorem getElem?_copyLoop {count : Nat} {cells : List α} {dest src : Nat}
    (inSource : src + count ≤ cells.length) (inDest : dest + count ≤ cells.length)
    (safe : dest ≤ src ∨ src + count ≤ dest) (index : Nat) :
    (copyLoop cells dest src count)[index]? =
      if dest ≤ index ∧ index < dest + count then cells[src + (index - dest)]?
      else cells[index]? := by
  induction count generalizing cells dest src with
  | zero => rw [copyLoop, if_neg (by omega)]
  | succ count ih =>
      have present : cells[src]? = some (cells.get ⟨src, by omega⟩) :=
        List.getElem?_eq_getElem (by omega)
      rw [copyLoop, present, Option.elim_some,
        ih (by rw [List.length_set]; omega) (by rw [List.length_set]; omega) (by omega)]
      by_cases later : dest + 1 ≤ index ∧ index < dest + 1 + count
      · rw [if_pos later, if_pos (by omega), List.getElem?_set_ne (by omega)]
        congr 1
        omega
      · rw [if_neg later]
        by_cases first : dest = index
        · subst first
          rw [if_pos (by omega), List.getElem?_set_self (by omega), Nat.sub_self, Nat.add_zero,
            present]
        · rw [List.getElem?_set_ne first, if_neg (by omega)]

/-- The loop is exact when the target is below the source or behind it. -/
theorem exact_loop {cells : List α} {dest src count : Nat}
    (inSource : src + count ≤ cells.length) (inDest : dest + count ≤ cells.length)
    (safe : dest ≤ src ∨ src + count ≤ dest) : (loop : Memcpy α).Exact cells dest src count := by
  have taken : ((cells.drop src).take count).length = count :=
    List.length_take_of_le (by rw [List.length_drop]; omega)
  apply List.ext_getElem?
  intro index
  change (copyLoop cells dest src count)[index]? = _
  rw [getElem?_copyLoop inSource inDest safe, getElem?_overwrite (by omega), taken]
  split
  · rw [List.getElem?_take_of_lt (by omega), List.getElem?_drop]
  · rfl

theorem loop_movesDown : (loop : Memcpy α).MovesDown := by
  intro cells dest src count inSource down
  exact exact_loop inSource (by omega) (Or.inl down)

end Memcpy

/-- The first `filled` cells are in use. -/
structure Buffer (α : Type*) (size : Nat) where
  cells : List α
  filled : Nat
  length_cells : cells.length = size
  filled_le : filled ≤ size

namespace Buffer

/-- The items that wait, in order. -/
def held (buffer : Buffer α size) : List α :=
  buffer.cells.take buffer.filled

/-- How many items still fit. -/
def room (buffer : Buffer α size) : Nat :=
  size - buffer.filled

/-- As many of the offered items as there is room for go behind the others. -/
def fill (buffer : Buffer α size) (offered : List α) : Buffer α size where
  cells := overwrite buffer.cells buffer.filled (offered.take buffer.room)
  filled := buffer.filled + (offered.take buffer.room).length
  length_cells := by
    have room := List.length_take_le buffer.room offered
    have := buffer.filled_le
    unfold Buffer.room at room
    rw [length_overwrite, buffer.length_cells]
    rw [buffer.length_cells]
    unfold Buffer.room
    omega
  filled_le := by
    have room := List.length_take_le buffer.room offered
    have := buffer.filled_le
    unfold Buffer.room at room ⊢
    omega

/-- The count goes down and the cells stay. -/
def shorten (buffer : Buffer α size) (taken : Nat) : Buffer α size where
  cells := buffer.cells
  filled := buffer.filled - taken
  length_cells := buffer.length_cells
  filled_le := Nat.le_trans (Nat.sub_le _ _) buffer.filled_le

/-- The count goes down and the rest is moved to the front. -/
def moveDown (memcpy : Memcpy α) (buffer : Buffer α size) (taken : Nat) : Buffer α size where
  cells := memcpy.copy buffer.cells 0 taken (buffer.filled - taken)
  filled := buffer.filled - taken
  length_cells := (memcpy.length_copy _ _ _ _).trans buffer.length_cells
  filled_le := Nat.le_trans (Nat.sub_le _ _) buffer.filled_le

variable {buffer : Buffer α size} {memcpy : Memcpy α} {taken : Nat}

theorem filled_le_length : buffer.filled ≤ buffer.cells.length := by
  rw [buffer.length_cells]
  exact buffer.filled_le

theorem length_held : buffer.held.length = buffer.filled :=
  List.length_take_of_le filled_le_length

theorem held_fill (offered : List α) :
    (buffer.fill offered).held = buffer.held ++ offered.take buffer.room :=
  take_overwrite filled_le_length

theorem held_shorten :
    (buffer.shorten taken).held = buffer.held.take (buffer.filled - taken) := by
  rw [held, held, List.take_take, Nat.min_eq_left (Nat.sub_le _ _)]
  rfl

/-- An exact copy of the rest leaves the items not taken. -/
theorem held_moveDown (inside : taken ≤ buffer.filled)
    (exact : memcpy.Exact buffer.cells 0 taken (buffer.filled - taken)) :
    (buffer.moveDown memcpy taken).held = buffer.held.drop taken := by
  have enough := buffer.filled_le_length
  have length : ((buffer.cells.drop taken).take (buffer.filled - taken)).length =
      buffer.filled - taken := List.length_take_of_le (by rw [List.length_drop]; omega)
  calc (buffer.moveDown memcpy taken).held
      = (overwrite buffer.cells 0 ((buffer.cells.drop taken).take (buffer.filled - taken))).take
          (0 + ((buffer.cells.drop taken).take (buffer.filled - taken)).length) := by
        rw [length, Nat.zero_add, ← exact]
        rfl
    _ = (buffer.cells.drop taken).take (buffer.filled - taken) := by
        rw [take_overwrite (Nat.zero_le _), List.take_zero, List.nil_append]
    _ = buffer.held.drop taken := by
        rw [held, List.drop_take]

end Buffer
