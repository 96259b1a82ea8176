import Mathlib.Data.List.Pairwise
import Mathlib.Data.List.Perm.Subperm

/-! # Tables of slots

A table of slots, each of them free or taken under a key. A loop over such a
table stops at the first slot a test holds of and changes it
(`Slots.updateFirst`). As long as the keys of the taken slots differ
(`Slots.Apart`), a change under one key leaves what is stored under the others.
-/

namespace Slots

variable {Slot Key : Type*}

/-- Change the first slot the test holds of. -/
def updateFirst (hit : Slot → Bool) (change : Slot → Slot) : List Slot → List Slot
  | [] => []
  | slot :: rest => if hit slot then change slot :: rest else slot :: updateFirst hit change rest

section Search

variable {hit wanted : Slot → Bool} {change : Slot → Slot} {table : List Slot}

theorem updateFirst_cons_hit {slot : Slot} {rest : List Slot} (found : hit slot = true) :
    updateFirst hit change (slot :: rest) = change slot :: rest := by
  rw [updateFirst, if_pos found]

theorem updateFirst_cons_miss {slot : Slot} {rest : List Slot} (missed : hit slot = false) :
    updateFirst hit change (slot :: rest) = slot :: updateFirst hit change rest := by
  rw [updateFirst, missed, if_neg Bool.false_ne_true]

/-- A slot of the changed table was there before or is the changed one. -/
theorem mem_updateFirst {slot : Slot} (member : slot ∈ updateFirst hit change table) :
    slot ∈ table ∨ ∃ old ∈ table, hit old = true ∧ slot = change old := by
  induction table with
  | nil => cases member
  | cons head rest ih =>
      cases found : hit head with
      | true =>
          rw [updateFirst_cons_hit found] at member
          rcases List.mem_cons.mp member with rfl | later
          · exact Or.inr ⟨head, List.mem_cons_self, found, rfl⟩
          · exact Or.inl (List.mem_cons_of_mem _ later)
      | false =>
          rw [updateFirst_cons_miss found] at member
          rcases List.mem_cons.mp member with rfl | later
          · exact Or.inl List.mem_cons_self
          · rcases ih later with kept | ⟨old, present, hits, same⟩
            · exact Or.inl (List.mem_cons_of_mem _ kept)
            · exact Or.inr ⟨old, List.mem_cons_of_mem _ present, hits, same⟩

/-- Tests that agree on the table change the same slot. -/
theorem updateFirst_congr (agree : ∀ slot ∈ table, hit slot = wanted slot) :
    updateFirst hit change table = updateFirst wanted change table := by
  induction table with
  | nil => rfl
  | cons head rest ih =>
      rw [updateFirst, updateFirst, agree head List.mem_cons_self,
        ih fun slot member => agree slot (List.mem_cons_of_mem _ member)]

/-- The first slot that is hit is changed in its place. -/
theorem updateFirst_of_hit (change : Slot → Slot) (hits : ∃ slot ∈ table, hit slot = true) :
    ∃ before slot after, table = before ++ slot :: after ∧ hit slot = true ∧
      updateFirst hit change table = before ++ change slot :: after := by
  induction table with
  | nil =>
      obtain ⟨slot, member, -⟩ := hits
      cases member
  | cons head rest ih =>
      cases found : hit head with
      | true => exact ⟨[], head, rest, rfl, found, updateFirst_cons_hit found⟩
      | false =>
          obtain ⟨slot, member, hits⟩ := hits
          rcases List.mem_cons.mp member with rfl | later
          · rw [found] at hits
            cases hits
          · obtain ⟨before, slot, after, rfl, hits, changed⟩ := ih ⟨slot, later, hits⟩
            exact ⟨head :: before, slot, after, rfl, hits,
              (updateFirst_cons_miss found).trans (congrArg _ changed)⟩

/-- A change keeps the number of slots. -/
theorem length_updateFirst : (updateFirst hit change table).length = table.length := by
  induction table with
  | nil => rfl
  | cons head rest ih =>
      cases found : hit head with
      | true => rw [updateFirst_cons_hit found, List.length_cons, List.length_cons]
      | false => rw [updateFirst_cons_miss found, List.length_cons, List.length_cons, ih]

/-- Each slot is as before, or it is the changed one. -/
theorem getElem?_updateFirst (index : Nat) :
    (updateFirst hit change table)[index]? = table[index]? ∨
      ∃ old, (updateFirst hit change table)[index]? = some (change old) := by
  induction table generalizing index with
  | nil => exact Or.inl rfl
  | cons head rest ih =>
      cases found : hit head with
      | true =>
          rw [updateFirst_cons_hit found]
          cases index with
          | zero => exact Or.inr ⟨head, rfl⟩
          | succ index => exact Or.inl rfl
      | false =>
          rw [updateFirst_cons_miss found]
          cases index with
          | zero => exact Or.inl rfl
          | succ index => exact ih index

/-- A hit is changed. -/
theorem exists_updateFirst (hit : Slot → Bool) (change : Slot → Slot) {slot : Slot}
    (member : slot ∈ table) (hits : hit slot = true) :
    ∃ old ∈ table, hit old = true ∧ change old ∈ updateFirst hit change table := by
  induction table with
  | nil => cases member
  | cons head rest ih =>
      cases found : hit head with
      | true =>
          rw [updateFirst_cons_hit found]
          exact ⟨head, List.mem_cons_self, found, List.mem_cons_self⟩
      | false =>
          rcases List.mem_cons.mp member with rfl | later
          · rw [hits] at found
            cases found
          · obtain ⟨old, present, hits, inside⟩ := ih later
            rw [updateFirst_cons_miss found]
            exact ⟨old, List.mem_cons_of_mem _ present, hits, List.mem_cons_of_mem _ inside⟩

/-- A search that gives an index gives the slot there. -/
theorem find?_eq_getElem? {index : Nat} (found : table.findIdx? hit = some index) :
    table.find? hit = table[index]? ∧ ∃ slot, table[index]? = some slot ∧ hit slot = true := by
  induction table generalizing index with
  | nil => cases found
  | cons head rest ih =>
      rw [List.findIdx?_cons] at found
      cases hits : hit head with
      | true =>
          rw [hits, if_pos rfl, Option.some.injEq] at found
          subst found
          exact ⟨List.find?_cons_of_pos hits, head, rfl, hits⟩
      | false =>
          rw [hits, if_neg Bool.false_ne_true, Option.map_eq_some_iff] at found
          obtain ⟨position, later, rfl⟩ := found
          rw [List.find?_cons_of_neg (by simp [hits])]
          exact ih later

/-- The slot at the index is the one that is changed. -/
theorem getElem?_updateFirst_of_found {index : Nat}
    (found : table.findIdx? hit = some index) (position : Nat) :
    (updateFirst hit change table)[position]? =
      if position = index then table[position]?.map change else table[position]? := by
  induction table generalizing index position with
  | nil => cases found
  | cons head rest ih =>
      rw [List.findIdx?_cons] at found
      cases hits : hit head with
      | true =>
          rw [hits, if_pos rfl, Option.some.injEq] at found
          subst found
          rw [updateFirst_cons_hit hits]
          cases position with
          | zero => rfl
          | succ position => rfl
      | false =>
          rw [hits, if_neg Bool.false_ne_true, Option.map_eq_some_iff] at found
          obtain ⟨earlier, later, rfl⟩ := found
          rw [updateFirst_cons_miss hits]
          cases position with
          | zero => rfl
          | succ position =>
              rw [List.getElem?_cons_succ, List.getElem?_cons_succ, ih later]
              simp only [Nat.add_right_cancel_iff]

/-- Only the slot that is found first changes. -/
theorem getD_updateFirst {index : Nat} (found : table.findIdx? hit = some index) (position : Nat)
    (default : Slot) : (updateFirst hit change table).getD position default =
      if position = index then change (table.getD index default)
      else table.getD position default := by
  rw [List.getD_eq_getElem?_getD, getElem?_updateFirst_of_found found]
  split
  · next same =>
      obtain ⟨-, slot, there, -⟩ := find?_eq_getElem? found
      rw [same, List.getD_eq_getElem?_getD, there]
      rfl
  · rfl

/-- A search that meets the changed slot neither before nor after the change. -/
theorem find?_updateFirst_of_not
    (untouched : ∀ slot, hit slot = true → wanted slot = false ∧ wanted (change slot) = false) :
    (updateFirst hit change table).find? wanted = table.find? wanted := by
  induction table with
  | nil => rfl
  | cons head rest ih =>
      cases found : hit head with
      | true =>
          obtain ⟨before, after⟩ := untouched head found
          rw [updateFirst_cons_hit found, List.find?_cons_of_neg (by simp [after]),
            List.find?_cons_of_neg (by simp [before])]
      | false =>
          rw [updateFirst_cons_miss found, List.find?_cons, List.find?_cons, ih]

/-- A search for the slot that is changed, when the change leaves it a hit. -/
theorem find?_updateFirst_self (kept : ∀ slot, hit slot = true → hit (change slot) = true) :
    (updateFirst hit change table).find? hit = (table.find? hit).map change := by
  induction table with
  | nil => rfl
  | cons head rest ih =>
      cases found : hit head with
      | true =>
          rw [updateFirst_cons_hit found, List.find?_cons_of_pos (kept head found),
            List.find?_cons_of_pos found, Option.map_some]
      | false =>
          rw [updateFirst_cons_miss found, List.find?_cons_of_neg (by simp [found]),
            List.find?_cons_of_neg (by simp [found]), ih]

/-- A search that only the changed slot can satisfy. -/
theorem find?_updateFirst_fill (filled : ∀ slot, hit slot = true → wanted (change slot) = true)
    (absent : table.find? wanted = none) :
    (updateFirst hit change table).find? wanted = (table.find? hit).map change := by
  induction table with
  | nil => rfl
  | cons head rest ih =>
      obtain ⟨headMiss, restMiss⟩ : wanted head = false ∧ rest.find? wanted = none := by
        rw [List.find?_cons] at absent
        cases unwanted : wanted head with
        | true =>
            rw [unwanted] at absent
            cases absent
        | false =>
            rw [unwanted] at absent
            exact ⟨rfl, absent⟩
      cases found : hit head with
      | true =>
          rw [updateFirst_cons_hit found, List.find?_cons_of_pos (filled head found),
            List.find?_cons_of_pos found, Option.map_some]
      | false =>
          rw [updateFirst_cons_miss found, List.find?_cons_of_neg (by simp [headMiss]),
            List.find?_cons_of_neg (by simp [found]), ih restMiss]

/-- Clearing the only slot a test holds of. -/
theorem find?_updateFirst_clear
    (alone : table.Pairwise fun first second => ¬ (hit first = true ∧ hit second = true))
    (cleared : ∀ slot, hit slot = true → hit (change slot) = false) :
    (updateFirst hit change table).find? hit = none := by
  induction table with
  | nil => rfl
  | cons head rest ih =>
      obtain ⟨others, restAlone⟩ := List.pairwise_cons.mp alone
      cases found : hit head with
      | true =>
          rw [updateFirst_cons_hit found,
            List.find?_cons_of_neg (by simp [cleared head found])]
          exact List.find?_eq_none.mpr fun slot member hits => others slot member ⟨found, hits⟩
      | false =>
          rw [updateFirst_cons_miss found, List.find?_cons_of_neg (by simp [found])]
          exact ih restAlone

end Search

/-! ### Slots under keys -/

section Keyed

variable (key : Slot → Key) (free : Key)

/-- The taken slots have different keys. -/
def Apart (table : List Slot) : Prop :=
  table.Pairwise fun first second => key first = key second → key first = free

/-- The slot under a key. -/
def stored [DecidableEq Key] (name : Key) (table : List Slot) : Option Slot :=
  table.find? fun slot => key slot = name

variable {key free} {table : List Slot} {change : Slot → Slot} {name other : Key}

theorem apart_replicate (count : Nat) (slot : Slot) (unused : key slot = free) :
    Apart key free (List.replicate count slot) :=
  List.pairwise_replicate.mpr (Or.inr fun _ => unused)

/-- The keys stay apart when the changed slot is freed, keeps its key, or takes
a key that no slot has. -/
theorem Apart.updateFirst {hit : Slot → Bool} (apart : Apart key free table)
    (placed : ∀ slot ∈ table, hit slot = true → key (change slot) = free ∨
      key (change slot) = key slot ∨ ∀ present ∈ table, key present ≠ key (change slot)) :
    Apart key free (updateFirst hit change table) := by
  induction table with
  | nil => exact apart
  | cons head rest ih =>
      obtain ⟨others, restApart⟩ := List.pairwise_cons.mp apart
      cases found : hit head with
      | true =>
          rw [updateFirst_cons_hit found]
          refine List.pairwise_cons.mpr ⟨fun second member same => ?_, restApart⟩
          rcases placed head List.mem_cons_self found with freed | kept | fresh
          · exact freed
          · rw [kept] at same ⊢
            exact others second member same
          · exact (fresh second (List.mem_cons_of_mem _ member) same.symm).elim
      | false =>
          rw [updateFirst_cons_miss found]
          refine List.pairwise_cons.mpr ⟨fun second member same => ?_, ih restApart ?_⟩
          · rcases mem_updateFirst member with old | ⟨old, present, hits, rfl⟩
            · exact others second old same
            · have inside := List.mem_cons_of_mem head present
              rcases placed old inside hits with freed | kept | fresh
              · exact same.trans freed
              · exact others old present (same.trans kept)
              · exact (fresh head List.mem_cons_self same).elim
          · intro slot member hits
            rcases placed slot (List.mem_cons_of_mem _ member) hits with freed | kept | fresh
            · exact Or.inl freed
            · exact Or.inr (Or.inl kept)
            · exact Or.inr (Or.inr fun present inside =>
                fresh present (List.mem_cons_of_mem _ inside))

/-- A table with the keys of another one, and without one of them, has a free
slot when it is not shorter. -/
theorem exists_free {Other : Type*} {others : List Other} (keyOf : Other → Key)
    (apart : Apart key free table) (fits : others.length ≤ table.length)
    (within : ∀ slot ∈ table, key slot ≠ free → ∃ held ∈ others, keyOf held = key slot)
    (extra : ∃ held ∈ others, ∀ slot ∈ table, key slot ≠ keyOf held) :
    ∃ slot ∈ table, key slot = free := by
  by_contra none
  have taken : ∀ slot ∈ table, key slot ≠ free := fun slot member same =>
    none ⟨slot, member, same⟩
  obtain ⟨held, present, apartFrom⟩ := extra
  have distinct : (table.map key).Nodup := by
    refine List.pairwise_map.mpr (List.Pairwise.imp_of_mem ?_ apart)
    intro first second member _ frees same
    exact taken first member (frees same)
  have more : (keyOf held :: table.map key).Nodup := by
    refine List.nodup_cons.mpr ⟨fun member => ?_, distinct⟩
    obtain ⟨slot, inside, same⟩ := List.mem_map.mp member
    exact apartFrom slot inside same
  have inside : keyOf held :: table.map key ⊆ others.map keyOf := by
    refine List.cons_subset.mpr ⟨List.mem_map_of_mem present, fun name member => ?_⟩
    obtain ⟨slot, inside, rfl⟩ := List.mem_map.mp member
    obtain ⟨other, listed, same⟩ := within slot inside (taken slot inside)
    exact same ▸ List.mem_map_of_mem listed
  have short := (more.subperm inside).length_le
  rw [List.length_cons, List.length_map, List.length_map] at short
  omega

variable [DecidableEq Key]

theorem stored_eq_none : stored key name table = none ↔ ∀ slot ∈ table, key slot ≠ name := by
  simp only [stored, List.find?_eq_none, decide_eq_true_eq, ne_eq]

/-- A taken slot is what is stored under its key. -/
theorem stored_of_mem {slot : Slot} (apart : Apart key free table) (member : slot ∈ table)
    (taken : key slot ≠ free) : stored key (key slot) table = some slot := by
  induction table with
  | nil => cases member
  | cons head rest ih =>
      obtain ⟨others, restApart⟩ := List.pairwise_cons.mp apart
      rcases List.mem_cons.mp member with rfl | later
      · exact List.find?_cons_of_pos (by simp)
      · have different : key head ≠ key slot := fun same =>
          taken (same.symm.trans (others slot later same))
        rw [stored, List.find?_cons_of_neg (by simp [different])]
        exact ih restApart later

/-- A taken slot is found where it is. -/
theorem findIdx?_of_apart {slot : Slot} {index : Nat} (apart : Apart key free table)
    (there : table[index]? = some slot) (taken : key slot ≠ free) :
    (table.findIdx? fun other => key other = key slot) = some index := by
  induction table generalizing index with
  | nil => cases there
  | cons head rest ih =>
      obtain ⟨others, restApart⟩ := List.pairwise_cons.mp apart
      rw [List.findIdx?_cons]
      cases index with
      | zero =>
          cases there
          rw [decide_eq_true rfl, if_pos rfl]
      | succ index =>
          have member : slot ∈ rest := List.mem_of_getElem? there
          have different : key head ≠ key slot := fun same =>
            taken (same.symm.trans (others slot member same))
          rw [decide_eq_false different, if_neg Bool.false_ne_true, ih restApart there]
          rfl

/-- A change that keeps the key. -/
theorem stored_change (kept : ∀ slot, key (change slot) = key slot) :
    stored key other (updateFirst (fun slot => key slot = name) change table) =
      if other = name then (stored key name table).map change else stored key other table := by
  by_cases same : other = name
  · subst same
    rw [if_pos rfl]
    exact find?_updateFirst_self fun slot hit => by simpa [kept] using hit
  · rw [if_neg same]
    apply find?_updateFirst_of_not
    intro slot hit
    have named : key slot = name := of_decide_eq_true hit
    simp [kept, named, Ne.symm same]

/-- Freeing the slot under a key. -/
theorem stored_clear (apart : Apart key free table) (cleared : ∀ slot, key (change slot) = free)
    (taken : name ≠ free) (otherTaken : other ≠ free) :
    stored key other (updateFirst (fun slot => key slot = name) change table) =
      if other = name then none else stored key other table := by
  by_cases same : other = name
  · subst same
    rw [if_pos rfl]
    apply find?_updateFirst_clear
    · refine apart.imp fun freed ⟨first, second⟩ => taken ?_
      rw [decide_eq_true_eq] at first second
      exact first.symm.trans (freed (first.trans second.symm))
    · intro slot _
      simp [cleared, Ne.symm taken]
  · rw [if_neg same]
    apply find?_updateFirst_of_not
    intro slot hit
    have named : key slot = name := of_decide_eq_true hit
    simp [cleared, named, Ne.symm same, Ne.symm otherTaken]

/-- Freeing a slot that was found by another test leaves nothing under its key. -/
theorem stored_clear_found {hit : Slot → Bool} {slot : Slot} (apart : Apart key free table)
    (found : table.find? hit = some slot) (taken : key slot ≠ free)
    (cleared : ∀ slot, key (change slot) = free) :
    stored key (key slot) (updateFirst hit change table) = none := by
  induction table with
  | nil => cases found
  | cons head rest ih =>
      obtain ⟨others, restApart⟩ := List.pairwise_cons.mp apart
      cases hits : hit head with
      | true =>
          rw [List.find?_cons_of_pos hits, Option.some.injEq] at found
          subst found
          rw [updateFirst_cons_hit hits]
          apply stored_eq_none.mpr
          intro other member same
          rcases List.mem_cons.mp member with rfl | later
          · exact taken (same.symm.trans (cleared head))
          · exact taken (others other later same.symm)
      | false =>
          rw [List.find?_cons_of_neg (by simp [hits])] at found
          rw [updateFirst_cons_miss hits]
          apply stored_eq_none.mpr
          intro other member same
          rcases List.mem_cons.mp member with rfl | later
          · have present := List.mem_of_find?_eq_some found
            exact taken (same.symm.trans (others slot present same))
          · exact stored_eq_none.mp (ih restApart found) other later same

/-- Taking the first free slot under a new key. -/
theorem stored_place (placed : ∀ slot, key (change slot) = name)
    (absent : stored key name table = none) (otherTaken : other ≠ free) :
    stored key other (updateFirst (fun slot => key slot = free) change table) =
      if other = name then (stored key free table).map change else stored key other table := by
  by_cases same : other = name
  · subst same
    rw [if_pos rfl]
    exact find?_updateFirst_fill (fun slot _ => by simp [placed]) absent
  · rw [if_neg same]
    apply find?_updateFirst_of_not
    intro slot hit
    have unused : key slot = free := of_decide_eq_true hit
    simp [placed, unused, Ne.symm same, Ne.symm otherTaken]

end Keyed

end Slots
