import Mathlib.Data.List.DropRight

/-! # Scanning a text

A scan takes the items up to a stop, at least one of them, and gives the rest back.
Reading with a limit cuts a stream after each separator, and after so many items.
-/

namespace Scan

variable {α : Type*}

/-! ### Up to a stop -/

/-- `sscanf` with a set of characters: as many items as do not stop it, if there are any. -/
def scanUntil (stop : α → Bool) (text : List α) : Option (List α × List α) :=
  match text.takeWhile fun item => !stop item with
  | [] => none
  | first :: rest => some (first :: rest, text.dropWhile fun item => !stop item)

section Stop

variable {stop : α → Bool} {word rest : List α}

/-- A word is taken whole and what stops it is left. -/
theorem takeWhile_append_stop (clean : ∀ item ∈ word, stop item = false)
    (stops : ∀ item ∈ rest.head?, stop item = true) :
    (word ++ rest).takeWhile (fun item => !stop item) = word ∧
      (word ++ rest).dropWhile (fun item => !stop item) = rest := by
  have passed : ∀ item ∈ word, (!stop item) = true := fun item member => by
    rw [clean item member]
    rfl
  rw [List.takeWhile_append_of_pos passed, List.dropWhile_append_of_pos passed]
  cases rest with
  | nil => exact ⟨List.append_nil word, rfl⟩
  | cons item rest =>
      have stopped : (!stop item) = false := by rw [stops item rfl]; rfl
      rw [List.takeWhile_cons, List.dropWhile_cons, stopped]
      exact ⟨List.append_nil word, rfl⟩

/-- A word is scanned up to what stops it. -/
theorem scanUntil_append (filled : word ≠ []) (clean : ∀ item ∈ word, stop item = false)
    (stops : ∀ item ∈ rest.head?, stop item = true) :
    scanUntil stop (word ++ rest) = some (word, rest) := by
  obtain ⟨taken, dropped⟩ := takeWhile_append_stop clean stops
  unfold scanUntil
  rw [taken, dropped]
  cases word with
  | nil => exact (filled rfl).elim
  | cons first word => rfl

end Stop

/-- What stands at the end of a text and is to go. -/
theorem rdropWhile_append {drop : α → Bool} {word rest : List α}
    (dropped : ∀ item ∈ rest, drop item = true) (last : ∀ item ∈ word.getLast?, drop item = false) :
    (word ++ rest).rdropWhile drop = word := by
  induction rest using List.reverseRecOn with
  | nil =>
      rw [List.append_nil, List.rdropWhile_eq_self_iff]
      intro filled
      rw [last _ (List.getLast?_eq_some_getLast filled)]
      exact Bool.false_ne_true
  | append_singleton rest item ih =>
      rw [← List.append_assoc, List.rdropWhile_concat_pos _ _ _ (dropped item (by simp))]
      exact ih fun item member => dropped item (List.mem_append_left _ member)

/-! ### Reading with a limit -/

variable [DecidableEq α]

/-- The pieces of a stream, when some of the first one has been read. A piece keeps its
separator and has at most `size` items. -/
def piecesFrom (separator : α) (size : Nat) : List α → List α → List (List α)
  | read, [] => if read = [] then [] else [read]
  | read, item :: rest =>
      if item = separator ∨ read.length + 1 = size then
        (read ++ [item]) :: piecesFrom separator size [] rest
      else piecesFrom separator size (read ++ [item]) rest

variable {separator : α} {size : Nat}

/-- A line that fits is a piece of its own, with its separator. -/
theorem piecesFrom_append {read line : List α} (clean : separator ∉ line)
    (fits : read.length + line.length < size) (rest : List α) :
    piecesFrom separator size read (line ++ separator :: rest) =
      (read ++ line ++ [separator]) :: piecesFrom separator size [] rest := by
  induction line generalizing read with
  | nil => rw [List.nil_append, piecesFrom, if_pos (Or.inl rfl), List.append_nil]
  | cons item line ih =>
      obtain ⟨other, cleanRest⟩ := not_or.mp (mt List.mem_cons.mpr clean)
      rw [List.length_cons] at fits
      have more : ¬ (item = separator ∨ read.length + 1 = size) := by
        rintro (same | full)
        · exact other same.symm
        · omega
      rw [List.cons_append, piecesFrom, if_neg more, ih cleanRest
        (by rw [List.length_append, List.length_singleton]; omega)]
      simp only [List.append_assoc, List.cons_append, List.nil_append]

/-- Short lines written one after the other are read back. -/
theorem piecesFrom_flatMap {β : Type*} {text : β → List α} {items : List β}
    (clean : ∀ item ∈ items, separator ∉ text item)
    (fits : ∀ item ∈ items, (text item).length < size) :
    piecesFrom separator size [] (items.flatMap fun item => text item ++ [separator]) =
      items.map fun item => text item ++ [separator] := by
  induction items with
  | nil => rfl
  | cons item rest ih =>
      rw [List.flatMap_cons, List.append_assoc, List.singleton_append,
        piecesFrom_append (clean item List.mem_cons_self)
          (by rw [List.length_nil, Nat.zero_add]; exact fits item List.mem_cons_self),
        List.nil_append, List.map_cons,
        ih (fun item member => clean item (List.mem_cons_of_mem _ member))
          fun item member => fits item (List.mem_cons_of_mem _ member)]

end Scan
