import Mathlib.Data.List.Sort

/-! # Lists in ascending order of a key

A list that strictly ascends in a key has no duplicates and is determined by its
elements. Sorting by the key gives such a list when no two elements share a key,
as in a union of classes taken from one table.
-/

namespace Ascending

variable {α κ γ : Type*} [LinearOrder κ] {key : α → κ} {first second list : List α}

/-- Every element has a smaller key than all later ones. -/
def Ascends (key : α → κ) (list : List α) : Prop :=
  list.Pairwise fun earlier later => key earlier < key later

theorem Ascends.filter (ascends : Ascends key list) (kept : α → Bool) :
    Ascends key (list.filter kept) :=
  List.Pairwise.filter kept ascends

/-- Two ascending lists with the same elements are equal. -/
theorem Ascends.eq_of_mem_iff (ascends : Ascends key first) (ascends' : Ascends key second)
    (same : ∀ element, element ∈ first ↔ element ∈ second) : first = second := by
  have : Std.Irrefl fun earlier later : α => key earlier < key later := ⟨fun _ => lt_irrefl _⟩
  have : Std.Antisymm fun earlier later : α => key earlier < key later :=
    ⟨fun _ _ less more => (lt_asymm less more).elim⟩
  exact List.Pairwise.eq_of_mem_iff ascends ascends' same

/-- Sorting elements with different keys makes them ascend. -/
theorem ascends_insertionSort (apart : list.Pairwise fun one other => key one ≠ key other) :
    Ascends key (list.insertionSort fun one other => key one ≤ key other) := by
  have : Std.Total fun one other : α => key one ≤ key other := ⟨fun _ _ => le_total _ _⟩
  have : IsTrans α fun one other : α => key one ≤ key other := ⟨fun _ _ _ => le_trans⟩
  have sorted := List.pairwise_insertionSort (fun one other : α => key one ≤ key other) list
  have different : (list.insertionSort fun one other => key one ≤ key other).Pairwise
      fun one other => key one ≠ key other :=
    (List.perm_insertionSort (fun one other : α => key one ≤ key other) list).symm.pairwise apart
      (fun {_ _} => Ne.symm)
  exact (sorted.and different).imp fun ⟨below, other⟩ => lt_of_le_of_ne below other

/-- Classes of one table, each taken once, have no element in common. -/
theorem pairwise_flatMap_filter [DecidableEq γ] {classes : List γ} (classOf : α → γ)
    {relation : α → α → Prop} (classesApart : classes.Nodup) (apart : list.Pairwise relation)
    (across : ∀ one ∈ list, ∀ other ∈ list, classOf one ≠ classOf other → relation one other) :
    (classes.flatMap fun group => list.filter fun element => classOf element = group).Pairwise
      relation := by
  refine List.pairwise_flatMap.mpr ⟨fun group _ => apart.filter _, ?_⟩
  refine classesApart.imp fun {group group'} different one oneIn other otherIn => ?_
  simp only [List.mem_filter, decide_eq_true_eq] at oneIn otherIn
  apply across one oneIn.1 other otherIn.1
  rw [oneIn.2, otherIn.2]
  exact different

end Ascending
