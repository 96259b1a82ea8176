import Mathlib.Data.Set.Function

/-! # A catalogue of stored items

Every row of an index names a place of a store. The index catalogues the store
when its rows and the occupied places are in one-to-one correspondence. Rows
come and go with the items at their places, and a row that stays keeps its item.
-/

namespace Catalogue

variable {ι π β : Type*}

/-- The places that hold an item. -/
def occupied (item : π → Option β) : Set π :=
  {path | item path ≠ none}

/-- The rows of the index are the places of the store. -/
def Catalogued (place : ι → π) (index : Set ι) (item : π → Option β) : Prop :=
  Set.BijOn place index (occupied item)

/-- One row is added with its item at a free place, or a set of rows is removed
with the items at their places. -/
inductive Change (place : ι → π) (index : Set ι) (item : π → Option β) (index' : Set ι)
    (item' : π → Option β) : Prop where
  | added (row : ι) (stored : β) (free : item (place row) = none)
      (rows : index' = insert row index) (here : item' (place row) = some stored)
      (elsewhere : ∀ path, path ≠ place row → item' path = item path)
  | removed (doomed : Set ι) (rows : index' = index \ doomed)
      (gone : ∀ row ∈ index, row ∈ doomed → item' (place row) = none)
      (elsewhere : ∀ path, (∀ row ∈ index, row ∈ doomed → place row ≠ path) →
        item' path = item path)

variable {place : ι → π} {index index' : Set ι} {item item' : π → Option β} {row : ι}

/-- A row present before and after a change keeps its item. -/
theorem Change.item_eq (change : Change place index item index' item')
    (catalogued : Catalogued place index item) (before : row ∈ index) (after : row ∈ index') :
    item' (place row) = item (place row) := by
  cases change with
  | added new stored free rows here elsewhere =>
      apply elsewhere
      intro same
      exact catalogued.mapsTo before (same ▸ free)
  | removed doomed rows gone elsewhere =>
      apply elsewhere
      intro other present inside same
      rw [rows] at after
      exact after.2 (catalogued.injOn present before same ▸ inside)

/-- Each change of both sides keeps every item filed under its entry. -/
theorem Change.catalogued (change : Change place index item index' item')
    (catalogued : Catalogued place index item) : Catalogued place index' item' := by
  cases change with
  | added new stored free rows here elsewhere =>
      have places : occupied item' = insert (place new) (occupied item) := by
        ext path
        by_cases same : path = place new
        · simp only [occupied, same, Set.mem_ofPred_eq, here, ne_eq, reduceCtorEq,
            not_false_eq_true, Set.mem_insert_iff, true_or]
        · simp only [occupied, Set.mem_ofPred_eq, elsewhere path same, Set.mem_insert_iff, same,
            false_or]
      rw [Catalogued, rows, places]
      exact catalogued.insert fun taken => taken free
  | removed doomed rows gone elsewhere =>
      have places : occupied item' = occupied item \ place '' (index ∩ doomed) := by
        ext path
        by_cases vacated : path ∈ place '' (index ∩ doomed)
        · obtain ⟨row, ⟨present, inside⟩, rfl⟩ := vacated
          have image : place row ∈ place '' (index ∩ doomed) := ⟨row, ⟨present, inside⟩, rfl⟩
          simp only [occupied, Set.mem_ofPred_eq, gone row present inside, ne_eq,
            not_true_eq_false, Set.mem_sdiff, image, and_false]
        · have same := elsewhere path fun row present inside names =>
            vacated ⟨row, ⟨present, inside⟩, names⟩
          simp only [occupied, Set.mem_ofPred_eq, same, Set.mem_sdiff, vacated,
            not_false_eq_true, and_true]
      have image : place '' (index \ doomed) = occupied item' := by
        rw [catalogued.injOn.image_sdiff, catalogued.image_eq, places]
      rw [Catalogued, rows, ← image]
      exact (catalogued.injOn.mono Set.sdiff_subset).bijOn_image

end Catalogue
