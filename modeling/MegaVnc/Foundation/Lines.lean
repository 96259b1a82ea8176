import Mathlib.Data.List.Basic

/-! # A stream of lines

A reader of a stream takes one item after the other and ends a line at each
separator. What follows the last separator is not a line yet.
-/

variable {α : Type*} [DecidableEq α]

/-- The lines of a stream, when some of the first one has been read. -/
def linesFrom (separator : α) : List α → List α → List (List α)
  | _, [] => []
  | read, item :: rest =>
      if item = separator then read :: linesFrom separator [] rest
      else linesFrom separator (read ++ [item]) rest

/-- The lines of a stream, each ended by the separator. -/
def linesOf (separator : α) (stream : List α) : List (List α) :=
  linesFrom separator [] stream

variable {separator : α} {line : List α}

/-- A separator ends the line that was begun. -/
theorem linesFrom_append (clean : separator ∉ line) (read rest : List α) :
    linesFrom separator read (line ++ separator :: rest) =
      (read ++ line) :: linesFrom separator [] rest := by
  induction line generalizing read with
  | nil => rw [List.nil_append, linesFrom, if_pos rfl, List.append_nil]
  | cons item line ih =>
      obtain ⟨other, cleanRest⟩ := not_or.mp (mt List.mem_cons.mpr clean)
      rw [List.cons_append, linesFrom, if_neg (Ne.symm other), ih cleanRest, List.append_assoc,
        List.singleton_append]

/-- Lines written one after the other are read back, when none holds the
separator. -/
theorem linesOf_flatMap {β : Type*} {text : β → List α} (clean : ∀ item, separator ∉ text item)
    (items : List β) :
    linesOf separator (items.flatMap fun item => text item ++ [separator]) = items.map text := by
  induction items with
  | nil => rfl
  | cons item rest ih =>
      rw [List.flatMap_cons, List.append_assoc, List.singleton_append, linesOf,
        linesFrom_append (clean item), List.nil_append, List.map_cons]
      exact congrArg _ ih

/-- A line is made of items of the stream. -/
theorem mem_of_mem_linesFrom {read stream : List α}
    (member : line ∈ linesFrom separator read stream) {item : α} (inside : item ∈ line) :
    item ∈ read ∨ item ∈ stream := by
  induction stream generalizing read with
  | nil => cases member
  | cons first rest ih =>
      rw [linesFrom] at member
      split at member
      · rcases List.mem_cons.mp member with rfl | later
        · exact Or.inl inside
        · rcases ih later with none | found
          · cases none
          · exact Or.inr (List.mem_cons_of_mem _ found)
      · rcases ih member with earlier | found
        · rcases List.mem_append.mp earlier with old | new
          · exact Or.inl old
          · exact Or.inr (List.mem_singleton.mp new ▸ List.mem_cons_self)
        · exact Or.inr (List.mem_cons_of_mem _ found)

/-- Lines hold what the stream holds. -/
theorem mem_of_mem_linesOf {stream : List α} (member : line ∈ linesOf separator stream) {item : α}
    (inside : item ∈ line) : item ∈ stream := by
  rcases mem_of_mem_linesFrom member inside with none | found
  · cases none
  · exact found
