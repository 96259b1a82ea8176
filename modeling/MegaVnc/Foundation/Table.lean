import Mathlib.Data.List.Nodup
import Mathlib.Data.List.Pairwise

/-! # Tables with a generated primary key and a unique column

A table carries the constraints its store enforces: no two rows share a primary
key, no two rows share a value of the unique column, every row is one that its
columns hold as it is, and every key present was drawn from the table's sequence.
A row that is written is stored as its columns keep it, which need not be as it was
given. A null in the unique column (`Schema.unique row = none`) clashes with nothing.
-/

namespace Relational

/-- The primary key of a row, its unique column, and the row as its columns keep it,
unless they refuse it. What the columns have kept once they keep as it is. -/
class Schema (Row : Type) (Unique : outParam Type) where
  key : Row → Int
  unique : Row → Option Unique
  fit : Row → Option Row
  key_fit : ∀ {row kept}, fit row = some kept → key kept = key row
  fit_fit : ∀ {row kept}, fit row = some kept → fit kept = some kept

export Schema (key unique fit key_fit fit_fit)

variable {Row Unique : Type} [Schema Row Unique]

/-- Two rows a unique constraint keeps apart. -/
def Clash (first second : Row) : Prop :=
  unique first ≠ none ∧ unique first = unique second

instance [DecidableEq Unique] (first second : Row) : Decidable (Clash first second) :=
  inferInstanceAs (Decidable (_ ∧ _))

theorem Clash.symm {first second : Row} (clash : Clash first second) : Clash second first :=
  ⟨fun absent => clash.1 (clash.2.trans absent), clash.2.symm⟩

variable (Row) in
/-- A table, with the constraints its rows satisfy. -/
structure Table where
  rows : List Row
  nextKey : Int
  keys_below : ∀ row ∈ rows, key row < nextKey
  rows_fit : ∀ row ∈ rows, fit row = some row
  keys_apart : rows.Pairwise fun first second => key first ≠ key second
  uniques_apart : rows.Pairwise fun first second => ¬ Clash first second

namespace Table

/-- A table without rows, whose sequence starts at 1. -/
def empty : Table Row where
  rows := []
  nextKey := 1
  keys_below := by simp
  rows_fit := by simp
  keys_apart := .nil
  uniques_apart := .nil

/-- The row with a primary key. -/
def findById (table : Table Row) (id : Int) : Option Row :=
  table.rows.find? fun row => key row = id

/-- Draw the next key and add the row built from it, as its columns keep it; `none`
when a constraint refuses the row. -/
def insert [DecidableEq Unique] (table : Table Row) (build : Int → Row)
    (keyed : ∀ id, key (build id) = id) : Option (Table Row) :=
  match kept : fit (build table.nextKey) with
  | none => none
  | some new =>
      if free : ∀ row ∈ table.rows, ¬ Clash row new then
        some
          { rows := table.rows ++ [new]
            nextKey := table.nextKey + 1
            keys_below := by
              intro row member
              rcases List.mem_append.mp member with old | added
              · have := table.keys_below row old
                omega
              · rw [List.mem_singleton.mp added, key_fit kept, keyed]
                omega
            rows_fit := by
              intro row member
              rcases List.mem_append.mp member with old | added
              · exact table.rows_fit row old
              · rw [List.mem_singleton.mp added]
                exact fit_fit kept
            keys_apart := by
              refine List.pairwise_append.mpr ⟨table.keys_apart, List.pairwise_singleton _ _, ?_⟩
              intro old member other added
              rw [List.mem_singleton.mp added, key_fit kept, keyed]
              exact Int.ne_of_lt (table.keys_below old member)
            uniques_apart := by
              refine List.pairwise_append.mpr
                ⟨table.uniques_apart, List.pairwise_singleton _ _, ?_⟩
              intro old member other added
              rw [List.mem_singleton.mp added]
              exact free old member }
      else none

/-- Put a row in the place of the row with its key. -/
def replace (rows : List Row) (row : Row) : List Row :=
  rows.map fun old => if key old = key row then row else old

theorem key_replaced (row old : Row) : key (if key old = key row then row else old) = key old := by
  split
  · next same => exact same.symm
  · rfl

/-- Overwrite every column of the row with the same key; `none` when a
constraint refuses the new value. -/
def update [DecidableEq Unique] (table : Table Row) (row : Row) : Option (Table Row) :=
  match kept : fit row with
  | none => none
  | some new =>
      if free : ∀ other ∈ table.rows, key other ≠ key new → ¬ Clash other new then
        some
          { rows := replace table.rows new
            nextKey := table.nextKey
            keys_below := by
              intro row member
              obtain ⟨old, present, rfl⟩ := List.mem_map.mp member
              rw [key_replaced]
              exact table.keys_below old present
            rows_fit := by
              intro row member
              obtain ⟨old, present, rfl⟩ := List.mem_map.mp member
              split
              · exact fit_fit kept
              · exact table.rows_fit old present
            keys_apart := by
              refine List.pairwise_map.mpr (table.keys_apart.imp fun different => ?_)
              rwa [key_replaced, key_replaced]
            uniques_apart := by
              refine List.pairwise_map.mpr ?_
              refine (table.keys_apart.and table.uniques_apart).imp_of_mem ?_
              intro first second firstIn secondIn ⟨different, apart⟩
              split
              · next firstKey =>
                  have other : key second ≠ key new :=
                    fun same => different (firstKey.trans same.symm)
                  rw [ite_eq_right_iff.mpr fun same => (other same).elim]
                  exact fun clash => free second secondIn other clash.symm
              · next firstKey =>
                  split
                  · exact free first firstIn firstKey
                  · exact apart }
      else none

/-- Remove the rows satisfying a predicate. -/
def deleteWhere (table : Table Row) (doomed : Row → Prop) [DecidablePred doomed] : Table Row where
  rows := table.rows.filter fun row => ¬ doomed row
  nextKey := table.nextKey
  keys_below row member := table.keys_below row (List.mem_filter.mp member).1
  rows_fit row member := table.rows_fit row (List.mem_filter.mp member).1
  keys_apart := table.keys_apart.filter _
  uniques_apart := table.uniques_apart.filter _

/-- Lose the next values of the sequence. -/
def skipKeys (table : Table Row) (count : Nat) : Table Row :=
  { table with
    nextKey := table.nextKey + count
    keys_below := fun row member => by
      have := table.keys_below row member
      omega }

/-! ### Rows by key and by unique value -/

variable {table next : Table Row} {row other : Row} {id : Int}

/-- Rows of a list that keeps a relation apart are the same row when they are related. -/
theorem eq_of_pairwise_not (relation : Row → Row → Prop) {rows : List Row}
    (apart : rows.Pairwise fun first second => ¬ relation first second)
    (symmetric : ∀ {first second}, relation first second → relation second first)
    (rowIn : row ∈ rows) (otherIn : other ∈ rows) (related : relation row other) :
    row = other := by
  have : Std.Symm fun first second => ¬ relation first second :=
    ⟨fun _ _ separate related => separate (symmetric related)⟩
  by_contra different
  exact apart.forall rowIn otherIn different related

theorem eq_of_key_eq (rowIn : row ∈ table.rows) (otherIn : other ∈ table.rows)
    (same : key row = key other) : row = other :=
  eq_of_pairwise_not (fun first second => key first = key second) table.keys_apart Eq.symm
    rowIn otherIn same

theorem eq_of_clash (rowIn : row ∈ table.rows) (otherIn : other ∈ table.rows)
    (clash : Clash row other) : row = other :=
  eq_of_pairwise_not Clash table.uniques_apart Clash.symm rowIn otherIn clash

/-- A search by the key finds exactly the stored row that has it. -/
theorem findById_eq_some : table.findById id = some row ↔ row ∈ table.rows ∧ key row = id := by
  constructor
  · intro found
    exact ⟨List.mem_of_find?_eq_some found, by simpa using List.find?_some found⟩
  · rintro ⟨member, rfl⟩
    cases found : table.findById (key row) with
    | none =>
        have missing := List.find?_eq_none.mp found row member
        simp only [decide_true, not_true_eq_false] at missing
    | some candidate =>
        have present := List.mem_of_find?_eq_some found
        have named : key candidate = key row := by simpa using List.find?_some found
        rw [eq_of_key_eq present member named]

/-- A row is found by a column that no two rows share. -/
theorem find?_of_apart {Column : Type} [DecidableEq Column] {rows : List Row}
    (column : Row → Column) (apart : (rows.map column).Nodup) (present : row ∈ rows) :
    rows.find? (fun other => column other = column row) = some row := by
  cases result : rows.find? fun other => column other = column row with
  | none => exact (List.find?_eq_none.mp result row present (decide_eq_true rfl)).elim
  | some found =>
      have foundIn := List.mem_of_find?_eq_some result
      have named := List.find?_some result
      rw [List.inj_on_of_nodup_map apart foundIn present (of_decide_eq_true named)]

/-- The rows stay apart in a column as long as a new row has a new value. -/
theorem nodup_append_row {Column : Type} (column : Row → Column) {rows : List Row} :
    ((rows ++ [row]).map column).Nodup ↔
      (rows.map column).Nodup ∧ ∀ other ∈ rows, column other ≠ column row := by
  rw [List.map_append, List.nodup_append]
  constructor
  · rintro ⟨apart, -, different⟩
    exact ⟨apart, fun other present =>
      different _ (List.mem_map_of_mem present) _ (List.mem_singleton_self _)⟩
  · rintro ⟨apart, different⟩
    refine ⟨apart, List.nodup_singleton _, fun value old new added => ?_⟩
    obtain ⟨other, present, rfl⟩ := List.mem_map.mp old
    rw [List.mem_singleton.mp added]
    exact different other present

/-! ### What an operation does to the rows -/

/-- After a replacement there are the other rows, and the new one if a row had its key. -/
theorem mem_replace {rows : List Row} :
    other ∈ replace rows row ↔ (other ∈ rows ∧ key other ≠ key row) ∨
      (other = row ∧ ∃ old ∈ rows, key old = key row) := by
  constructor
  · intro member
    obtain ⟨old, present, rfl⟩ := List.mem_map.mp member
    by_cases same : key old = key row
    · rw [ite_eq_left_iff.mpr fun different => (different same).elim]
      exact Or.inr ⟨rfl, old, present, same⟩
    · rw [ite_eq_right_iff.mpr fun equal => (same equal).elim]
      exact Or.inl ⟨present, same⟩
  · rintro (⟨present, different⟩ | ⟨rfl, old, present, same⟩)
    · exact List.mem_map.mpr ⟨other, present,
        ite_eq_right_iff.mpr fun same => (different same).elim⟩
    · exact List.mem_map.mpr ⟨old, present, ite_eq_left_iff.mpr fun different =>
        (different same).elim⟩

/-- The later of two replacements of a row counts. -/
theorem replace_replace {rows : List Row} (same : key other = key row) :
    replace (replace rows other) row = replace rows row := by
  unfold replace
  rw [List.map_map]
  apply List.map_congr_left
  intro old _
  simp only [Function.comp_apply]
  by_cases hit : key old = key row
  · simp only [hit, same, ↓reduceIte]
  · simp only [hit, same, ↓reduceIte]

/-- A row put in the place of one with the same value leaves a column as it is. -/
theorem map_replace {Column : Type} (column : Row → Column) {old : Row} (new : Row)
    (present : old ∈ table.rows) (sameKey : key new = key old)
    (sameValue : column new = column old) :
    (replace table.rows new).map column = table.rows.map column := by
  rw [replace, List.map_map]
  apply List.map_congr_left
  intro row member
  rw [Function.comp_apply]
  split
  · next hit =>
      rw [sameValue, eq_of_key_eq member present (hit.trans sameKey)]
  · rfl

/-- Writing back a row that is there changes nothing. -/
theorem replace_self (present : row ∈ table.rows) : replace table.rows row = table.rows := by
  have same : ∀ old ∈ table.rows, (if key old = key row then row else old) = old := by
    intro old member
    by_cases hit : key old = key row
    · rw [ite_eq_left_iff.mpr fun different => (different hit).elim]
      exact (eq_of_key_eq member present hit).symm
    · exact ite_eq_right_iff.mpr fun equal => (hit equal).elim
  calc
    replace table.rows row = table.rows.map id := List.map_congr_left same
    _ = table.rows := List.map_id table.rows

theorem mem_deleteWhere {doomed : Row → Prop} [DecidablePred doomed] :
    row ∈ (table.deleteWhere doomed).rows ↔ row ∈ table.rows ∧ ¬ doomed row := by
  simp only [deleteWhere, List.mem_filter, decide_eq_true_eq]

/-- Two predicates that agree on the rows remove the same ones. -/
theorem deleteWhere_congr {doomed others : Row → Prop} [DecidablePred doomed]
    [DecidablePred others] (agree : ∀ row ∈ table.rows, doomed row ↔ others row) :
    table.deleteWhere doomed = table.deleteWhere others := by
  have rows : (table.rows.filter fun row => ¬ doomed row) =
      table.rows.filter fun row => ¬ others row :=
    List.filter_congr fun row member => decide_eq_decide.mpr (not_congr (agree row member))
  simp only [deleteWhere, rows]

variable [DecidableEq Unique]

/-- A table that was inserted into has the row as its columns keep it, which clashes
with none before it. -/
theorem insert_eq_some {build : Int → Row} {keyed : ∀ id, key (build id) = id}
    (added : table.insert build keyed = some next) :
    ∃ new, fit (build table.nextKey) = some new ∧ (∀ row ∈ table.rows, ¬ Clash row new) ∧
      next.rows = table.rows ++ [new] ∧ next.nextKey = table.nextKey + 1 := by
  unfold insert at added
  split at added
  · cases added
  · next new kept =>
      split at added
      · next free =>
          cases added
          exact ⟨new, kept, free, rfl, rfl⟩
      · cases added

/-- A row that its columns keep, without a clash, is inserted. -/
theorem insert_isSome {build : Int → Row} {keyed : ∀ id, key (build id) = id} {new : Row}
    (kept : fit (build table.nextKey) = some new)
    (free : ∀ row ∈ table.rows, ¬ Clash row new) :
    ∃ next, table.insert build keyed = some next := by
  unfold insert
  split
  · next refused =>
      rw [kept] at refused
      cases refused
  · next other same =>
      obtain rfl := Option.some.inj (kept.symm.trans same)
      rw [dite_cond_eq_true (eq_true free)]
      exact ⟨_, rfl⟩

/-- An update puts the row as its columns keep it in the place of the old one. -/
theorem update_eq_some (written : table.update row = some next) :
    ∃ new, fit row = some new ∧ next.rows = replace table.rows new ∧
      next.nextKey = table.nextKey := by
  unfold update at written
  split at written
  · cases written
  · next new kept =>
      split at written
      · cases written
        exact ⟨new, kept, rfl, rfl⟩
      · cases written

/-- A row that its columns keep with the unique value of the old one is never refused. -/
theorem update_isSome {new : Row} (kept : fit row = some new) (present : other ∈ table.rows)
    (sameKey : key other = key row) (sameUnique : unique other = unique new) :
    ∃ next, table.update row = some next := by
  have free : ∀ third ∈ table.rows, key third ≠ key new → ¬ Clash third new := by
    intro third member different clash
    have clashes : Clash third other := ⟨clash.1, clash.2.trans sameUnique.symm⟩
    exact different ((congrArg key (eq_of_clash member present clashes)).trans
      (sameKey.trans (key_fit kept).symm))
  unfold update
  split
  · next refused =>
      rw [kept] at refused
      cases refused
  · next third same =>
      obtain rfl := Option.some.inj (kept.symm.trans same)
      rw [dite_cond_eq_true (eq_true free)]
      exact ⟨_, rfl⟩

end Table

end Relational
