import Mathlib.Data.List.Range
import Mathlib.Logic.Function.Basic

/-! # A queue in a ring of cells

Items are put in at the head and taken out at the tail of a ring of `size`
cells. The indices move on by one and wrap at the end, and a count tells a full
ring from an empty one. A ring holds a queue of at most `size` items.
-/

namespace Fifo

/-- The next index of a ring. -/
def advance (size index : Nat) : Nat :=
  if index < size - 1 then index + 1 else 0

/-- The index `offset` cells after another one; there is at most one wrap. -/
def wrap (size index offset : Nat) : Nat :=
  if index + offset < size then index + offset else index + offset - size

end Fifo

/-- A ring of cells: items are put in at the head and taken out at the tail, and a count
tells a full ring from an empty one. -/
structure Fifo (α : Type*) (size : Nat) where
  cells : Nat → α
  head : Nat
  tail : Nat
  count : Nat
  tail_lt : tail < size
  count_le : count ≤ size
  head_eq : head = if count = size then tail else Fifo.wrap size tail count

namespace Fifo

variable {α : Type*} {size : Nat}

/-- The items from the tail on, the oldest first. -/
def items (ring : Fifo α size) : List α :=
  (List.range ring.count).map fun offset => ring.cells (wrap size ring.tail offset)

/-- The indices are set back, and the cells stay. -/
def clear (ring : Fifo α size) : Fifo α size where
  cells := ring.cells
  head := 0
  tail := 0
  count := 0
  tail_lt := Nat.zero_lt_of_lt ring.tail_lt
  count_le := Nat.zero_le size
  head_eq := by
    have positive := Nat.zero_lt_of_lt ring.tail_lt
    rw [if_neg (by omega), wrap, if_pos (by omega)]

/-- Room for an item. -/
def push (ring : Fifo α size) (item : α) (room : ring.count < size) : Fifo α size where
  cells := Function.update ring.cells ring.head item
  head := advance size ring.head
  tail := ring.tail
  count := ring.count + 1
  tail_lt := ring.tail_lt
  count_le := room
  head_eq := by
    have inside := ring.tail_lt
    rw [ring.head_eq, if_neg (by omega)]
    unfold advance wrap
    split_ifs <;> omega

/-- The cell of the item that is taken out stays as it is. -/
def drop (ring : Fifo α size) (filled : ring.count ≠ 0) : Fifo α size where
  cells := ring.cells
  head := ring.head
  tail := advance size ring.tail
  count := ring.count - 1
  tail_lt := by
    have inside := ring.tail_lt
    unfold advance
    split_ifs <;> omega
  count_le := (Nat.sub_le _ _).trans ring.count_le
  head_eq := by
    have inside := ring.tail_lt
    have bounded := ring.count_le
    rw [ring.head_eq]
    unfold advance wrap
    split_ifs <;> omega

/-- The item that has waited longest. -/
def first (ring : Fifo α size) : α :=
  ring.cells ring.tail

variable {ring : Fifo α size} {item : α}

theorem length_items : ring.items.length = ring.count := by
  rw [items, List.length_map, List.length_range]

theorem items_eq_nil_iff : ring.items = [] ↔ ring.count = 0 := by
  rw [← List.length_eq_zero_iff, length_items]

@[simp] theorem items_clear : ring.clear.items = [] :=
  items_eq_nil_iff.mpr rfl

theorem wrap_ne {index first second : Nat} (before : first < second)
    (bounded : second < size) : wrap size index first ≠ wrap size index second := by
  unfold wrap
  split_ifs <;> omega

/-- An item goes behind those that wait. -/
theorem items_push (room : ring.count < size) :
    (ring.push item room).items = ring.items ++ [item] := by
  have place : ring.head = wrap size ring.tail ring.count := by
    rw [ring.head_eq, if_neg room.ne]
  change (List.range (ring.count + 1)).map
    (fun offset => Function.update ring.cells ring.head item (wrap size ring.tail offset)) = _
  rw [List.range_succ, List.map_append, List.map_singleton, place, Function.update_self]
  congr 1
  apply List.map_congr_left
  intro offset member
  exact Function.update_of_ne (wrap_ne (List.mem_range.mp member) room) _ _

/-- The first item leaves the others behind it. -/
theorem items_eq_cons (filled : ring.count ≠ 0) :
    ring.items = ring.first :: (ring.drop filled).items := by
  obtain ⟨fewer, same⟩ := Nat.exists_eq_succ_of_ne_zero filled
  have inside := ring.tail_lt
  have bounded := ring.count_le
  have rest : (ring.drop filled).count = fewer := by
    change ring.count - 1 = fewer
    omega
  have firstCell : wrap size ring.tail 0 = ring.tail := if_pos inside
  rw [items, items, rest, same, Nat.succ_eq_add_one, List.range_succ_eq_map, List.map_cons,
    List.map_map, firstCell]
  congr 1
  apply List.map_congr_left
  intro offset member
  have within := List.mem_range.mp member
  change ring.cells (wrap size ring.tail (offset + 1)) =
    ring.cells (wrap size (advance size ring.tail) offset)
  congr 1
  unfold advance wrap
  split_ifs <;> omega

end Fifo
