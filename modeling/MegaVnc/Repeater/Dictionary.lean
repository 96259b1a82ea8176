import MegaVnc.Foundation.Run
import MegaVnc.Foundation.Slots

/-! # The dictionary of the ini file

What an ini file says is kept in slots with a key, a value and the hash of the key. A
search starts at the first slot, a new key takes the first free one, and the slots are
doubled when all are taken. A free slot has the hash 0: a search for a key with that
hash gives a null pointer to `strcmp`.
-/

namespace Repeater

open Slots Transition

/-- What the process does not survive. -/
inductive NullPointer where
  | strcmp
  | atoi
  | strlcpy
  | subscript
deriving DecidableEq

/-- A dictionary has at least this many slots. -/
def dictMinSz : Nat := 128

/-- A `char` has a sign, which the conversion extends. -/
def toUnsigned (char : Char) : UInt32 :=
  char.toNat.toUInt8.toInt8.toInt32.toUInt32

/-- The hash of a key, over its bytes taken as `unsigned`. -/
def dictionaryHash (key : List Char) : UInt32 :=
  let hash := key.foldl (fun hash char =>
    let hash := hash + toUnsigned char
    let hash := hash + hash <<< 10
    hash ^^^ hash >>> 6) 0
  let hash := hash + hash <<< 3
  let hash := hash ^^^ hash >>> 11
  hash + hash <<< 15

/-- A slot with its key, value and hash; a value may be null. -/
structure Slot where
  key : Option (List Char)
  val : Option (List Char)
  hash : UInt32

/-- What `calloc` leaves in a slot. -/
def Slot.zero : Slot where
  key := none
  val := none
  hash := 0

/-- The slots, and how many of them are taken. -/
structure Dictionary where
  n : Nat
  slots : List Slot

/-- All slots are free. -/
def dictionaryNew (size : Nat) : Dictionary where
  n := 0
  slots := List.replicate (max size dictMinSz) .zero

/-- The loop of `dictionary_get`. It takes a slot for taken whose hash is that of the
key. -/
def searchSlots (hash : UInt32) (key : List Char) :
    List Slot → Except NullPointer (Option (Option (List Char)))
  | [] => .ok none
  | slot :: rest =>
      if hash = slot.hash then
        match slot.key with
        | none => .error .strcmp
        | some name => if key = name then .ok (some slot.val) else searchSlots hash key rest
      else searchSlots hash key rest

/-- Without a slot for the key it is the caller's default that is returned. -/
def dictionaryGet (dictionary : Dictionary) (key : List Char) :
    Except NullPointer (Option (Option (List Char))) :=
  searchSlots (dictionaryHash key) key dictionary.slots

/-- The comparison of the other loops, which pass over free slots. -/
def Slot.isFor (hash : UInt32) (key : List Char) (slot : Slot) : Bool :=
  slot.key ≠ none ∧ hash = slot.hash ∧ slot.key = some key

/-- A slot without a key is free. -/
def Slot.isFree (slot : Slot) : Bool :=
  slot.key = none

/-- The slots are doubled when all are taken. -/
def memDouble (dictionary : Dictionary) : Dictionary :=
  if dictionary.n = dictionary.slots.length then
    { dictionary with
      slots := dictionary.slots ++ List.replicate dictionary.slots.length .zero }
  else dictionary

/-- The value of a stored key is replaced; a new key gets the first free slot, after the
slots have been doubled if none is free. -/
def dictionarySet (dictionary : Dictionary) (key : List Char) (val : Option (List Char)) :
    Dictionary :=
  let hash := dictionaryHash key
  if 0 < dictionary.n ∧ dictionary.slots.any (Slot.isFor hash key) then
    { dictionary with
      slots := updateFirst (Slot.isFor hash key) (fun slot => { slot with val := val })
        dictionary.slots }
  else
    let dictionary := memDouble dictionary
    { n := dictionary.n + 1
      slots := updateFirst Slot.isFree (fun _ => { key := some key, val := val, hash := hash })
        dictionary.slots }

/-- The slot of a stored key becomes free. -/
def dictionaryUnset (dictionary : Dictionary) (key : List Char) : Dictionary :=
  let hash := dictionaryHash key
  if dictionary.slots.any (Slot.isFor hash key) then
    { n := dictionary.n - 1
      slots := updateFirst (Slot.isFor hash key) (fun _ => .zero) dictionary.slots }
  else dictionary

/-! ### Contents -/

/-- What a dictionary says of each key. -/
abbrev Content := List Char → Option (Option (List Char))

/-- The map that a dictionary stands for. -/
def Dictionary.content (dictionary : Dictionary) : Content :=
  fun key => (stored Slot.key (some key) dictionary.slots).map Slot.val

/-- A call that changes a dictionary. -/
inductive Change where
  | set (key : List Char) (val : Option (List Char))
  | unset (key : List Char)

/-- What the call does to the slots. -/
def Dictionary.change (dictionary : Dictionary) : Change → Dictionary
  | .set key val => dictionarySet dictionary key val
  | .unset key => dictionaryUnset dictionary key

/-- What the call does to the map. -/
def Content.change (content : Content) : Change → Content
  | .set key val => Function.update content key (some val)
  | .unset key => Function.update content key none

/-- The taken slots have different keys, each beside its hash, and are as many as the
dictionary counts. -/
structure Dictionary.Sound (dictionary : Dictionary) : Prop where
  apart : Apart Slot.key none dictionary.slots
  hashed : ∀ slot ∈ dictionary.slots, ∀ key, slot.key = some key → slot.hash = dictionaryHash key
  zero : ∀ slot ∈ dictionary.slots, slot.key = none → slot = .zero
  counted : dictionary.n = dictionary.slots.countP fun slot => slot.key ≠ none
  room : 0 < dictionary.slots.length

/-- A search passes over the free slots, as long as the hash is not theirs. -/
theorem searchSlots_eq {key : List Char} {slots : List Slot} (nonzero : dictionaryHash key ≠ 0)
    (hashed : ∀ slot ∈ slots, ∀ name, slot.key = some name → slot.hash = dictionaryHash name)
    (zero : ∀ slot ∈ slots, slot.key = none → slot = .zero) :
    searchSlots (dictionaryHash key) key slots =
      .ok ((stored Slot.key (some key) slots).map Slot.val) := by
  unfold stored
  induction slots with
  | nil => rfl
  | cons slot rest ih =>
      have later := ih (fun slot member => hashed slot (List.mem_cons_of_mem _ member))
        fun slot member => zero slot (List.mem_cons_of_mem _ member)
      rw [searchSlots]
      cases taken : slot.key with
      | none =>
          have free : slot.hash = 0 := by rw [zero slot List.mem_cons_self taken]; rfl
          rw [if_neg (by rw [free]; exact nonzero), later,
            List.find?_cons_of_neg (by simp [taken])]
      | some name =>
          by_cases same : key = name
          · subst same
            rw [if_pos (hashed slot List.mem_cons_self _ taken).symm, List.find?_cons_of_pos
              (by simp [taken])]
            exact if_pos rfl
          · rw [List.find?_cons_of_neg (by simp [taken, Ne.symm same]), ← later]
            dsimp only
            rw [if_neg same, ite_self]

namespace Dictionary.Sound

variable {dictionary : Dictionary} {key : List Char} {val : Option (List Char)}

/-- A new dictionary is sound. -/
theorem new (size : Nat) : (dictionaryNew size).Sound where
  apart := apart_replicate _ _ rfl
  hashed slot member key taken := by
    rw [List.eq_of_mem_replicate member] at taken
    cases taken
  zero slot member _ := List.eq_of_mem_replicate member
  counted := by
    refine (List.countP_eq_zero.mpr fun slot member => ?_).symm
    rw [List.eq_of_mem_replicate member]
    decide
  room := by
    rw [dictionaryNew, List.length_replicate]
    exact Nat.lt_of_lt_of_le (by decide) (Nat.le_max_right _ _)

/-- The hash is compared for speed only. -/
theorem isFor_eq (sound : dictionary.Sound) (slot : Slot) (member : slot ∈ dictionary.slots) :
    slot.isFor (dictionaryHash key) key = decide (slot.key = some key) := by
  unfold Slot.isFor
  by_cases named : slot.key = some key
  · simp only [named, sound.hashed slot member key named, ne_eq, reduceCtorEq, not_false_eq_true,
      and_self]
  · simp only [named, and_false]

theorem get (sound : dictionary.Sound) (hashed : dictionaryHash key ≠ 0) :
    dictionaryGet dictionary key = .ok (dictionary.content key) :=
  searchSlots_eq hashed sound.hashed sound.zero

/-- A slot is found for a key exactly when one has it. -/
theorem any_isFor (sound : dictionary.Sound) :
    dictionary.slots.any (Slot.isFor (dictionaryHash key) key) = true ↔
      ∃ slot ∈ dictionary.slots, slot.key = some key := by
  rw [List.any_eq_true]
  refine exists_congr fun slot => and_congr_right fun member => ?_
  rw [sound.isFor_eq slot member, decide_eq_true_eq]

theorem updateFirst_isFor (sound : dictionary.Sound) (change : Slot → Slot) :
    updateFirst (Slot.isFor (dictionaryHash key) key) change dictionary.slots =
      updateFirst (fun slot => slot.key = some key) change dictionary.slots :=
  updateFirst_congr sound.isFor_eq

/-- There is always a slot for a new key. -/
theorem memDouble (sound : dictionary.Sound) :
    (Repeater.memDouble dictionary).Sound ∧
      (Repeater.memDouble dictionary).content = dictionary.content ∧
      ∃ slot ∈ (Repeater.memDouble dictionary).slots, slot.isFree = true := by
  unfold Repeater.memDouble
  split
  · next full =>
      have added : ∀ slot ∈ List.replicate dictionary.slots.length Slot.zero, slot = .zero :=
        fun slot member => List.eq_of_mem_replicate member
      refine ⟨⟨?_, ?_, ?_, ?_, ?_⟩, ?_, ?_⟩
      · refine List.pairwise_append.mpr ⟨sound.apart, apart_replicate _ _ rfl, ?_⟩
        intro first _ second member same
        rw [same, added second member]
        rfl
      · intro slot member key taken
        rcases List.mem_append.mp member with old | new
        · exact sound.hashed slot old key taken
        · rw [added slot new] at taken
          cases taken
      · intro slot member free
        rcases List.mem_append.mp member with old | new
        · exact sound.zero slot old free
        · exact added slot new
      · have none : (List.replicate dictionary.slots.length Slot.zero).countP
            (fun slot => slot.key ≠ none) = 0 := by
          refine List.countP_eq_zero.mpr fun slot member => ?_
          rw [added slot member]
          decide
        rw [List.countP_append, none, ← sound.counted]
        rfl
      · rw [List.length_append]
        exact Nat.add_pos_left sound.room _
      · funext key
        have none : (List.replicate dictionary.slots.length Slot.zero).find?
            (fun slot => slot.key = some key) = none := by
          refine List.find?_eq_none.mpr fun slot member => ?_
          rw [added slot member]
          exact of_decide_eq_false rfl
        unfold Dictionary.content stored
        rw [List.find?_append, none, Option.or_none]
      · exact ⟨.zero, List.mem_append_right _ (List.mem_replicate.mpr
          ⟨Nat.pos_iff_ne_zero.mp sound.room, rfl⟩), rfl⟩
  · next notFull =>
      refine ⟨sound, rfl, ?_⟩
      by_contra none
      push Not at none
      refine notFull (sound.counted.trans (List.countP_eq_length.mpr fun slot member => ?_))
      simpa [Slot.isFree] using none slot member

/-- A change of one slot, and what it makes of the count. -/
theorem updateFirst {hit : Slot → Bool} {change : Slot → Slot} {n : Nat}
    (sound : dictionary.Sound) (hits : ∃ slot ∈ dictionary.slots, hit slot = true)
    (placed : ∀ slot ∈ dictionary.slots, hit slot = true → (change slot).key = none ∨
      (change slot).key = slot.key ∨
        ∀ present ∈ dictionary.slots, present.key ≠ (change slot).key)
    (hashed : ∀ slot ∈ dictionary.slots, hit slot = true → ∀ name, (change slot).key = some name →
      (change slot).hash = dictionaryHash name)
    (zero : ∀ slot ∈ dictionary.slots, hit slot = true → (change slot).key = none →
      change slot = .zero)
    (counted : ∀ slot, hit slot = true →
      n + (if slot.key ≠ none then 1 else 0) =
        dictionary.n + if (change slot).key ≠ none then 1 else 0) :
    Dictionary.Sound { n := n, slots := Slots.updateFirst hit change dictionary.slots } where
  apart := sound.apart.updateFirst placed
  hashed slot member name taken := by
    rcases mem_updateFirst member with old | ⟨old, present, found, rfl⟩
    · exact sound.hashed slot old name taken
    · exact hashed old present found name taken
  zero slot member free := by
    rcases mem_updateFirst member with old | ⟨old, present, found, rfl⟩
    · exact sound.zero slot old free
    · exact zero old present found free
  counted := by
    obtain ⟨before, slot, after, table, found, changed⟩ := updateFirst_of_hit change hits
    have total := counted slot found
    rw [sound.counted, table] at total
    simp only [List.countP_append, List.countP_cons, decide_eq_true_eq] at total
    rw [changed]
    simp only [List.countP_append, List.countP_cons, decide_eq_true_eq]
    omega
  room := by
    rw [length_updateFirst]
    exact sound.room

/-- A key that is not there takes a free slot. -/
theorem fill (sound : dictionary.Sound) (free : ∃ slot ∈ dictionary.slots, slot.isFree = true)
    (unused : dictionary.content key = none) :
    Dictionary.Sound
      { n := dictionary.n + 1
        slots := Slots.updateFirst Slot.isFree
          (fun _ => { key := some key, val := val, hash := dictionaryHash key })
          dictionary.slots } := by
  have absent := stored_eq_none.mp (Option.map_eq_none_iff.mp unused)
  refine sound.updateFirst free (fun _ _ _ => Or.inr (Or.inr absent)) ?_ ?_ ?_
  · intro slot _ _ name taken
    cases taken
    rfl
  · intro slot _ _ free
    cases free
  · intro slot found
    have none : slot.key = none := of_decide_eq_true found
    simp [none]

/-- Filling a free slot adds its key to the map. -/
theorem content_fill (free : ∃ slot ∈ dictionary.slots, slot.isFree = true)
    (unused : dictionary.content key = none) (n : Nat) :
    Dictionary.content
      { n := n
        slots := Slots.updateFirst Slot.isFree
          (fun _ => { key := some key, val := val, hash := dictionaryHash key })
          dictionary.slots } = Function.update dictionary.content key (some val) := by
  funext other
  have placed : stored Slot.key (some other) (Slots.updateFirst (fun slot => slot.key = none)
      (fun _ => { key := some key, val := val, hash := dictionaryHash key })
      dictionary.slots) = if some other = some key then
        (stored Slot.key none dictionary.slots).map fun _ =>
          { key := some key, val := val, hash := dictionaryHash key }
      else stored Slot.key (some other) dictionary.slots :=
    stored_place (fun _ => rfl) (Option.map_eq_none_iff.mp unused) (Option.some_ne_none other)
  obtain ⟨slot, found⟩ := Option.isSome_iff_exists.mp (List.find?_isSome.mpr free)
  refine (congrArg (Option.map Slot.val) placed).trans ?_
  by_cases same : other = key
  · subst same
    rw [if_pos rfl, show stored Slot.key none dictionary.slots = some slot from found,
      Function.update_self]
    rfl
  · rw [if_neg (by simpa using same), Function.update_of_ne same]
    rfl

/-- A set changes the map at its key. -/
theorem set (sound : dictionary.Sound) :
    (dictionarySet dictionary key val).Sound ∧
      (dictionarySet dictionary key val).content =
        Function.update dictionary.content key (some val) := by
  unfold dictionarySet
  dsimp only
  by_cases present : ∃ slot ∈ dictionary.slots, slot.key = some key
  · have counts : 0 < dictionary.n := by
      obtain ⟨slot, member, named⟩ := present
      rw [sound.counted]
      exact List.countP_pos_iff.mpr ⟨slot, member, by simp [named]⟩
    rw [if_pos ⟨counts, sound.any_isFor.mpr present⟩, sound.updateFirst_isFor]
    constructor
    · refine sound.updateFirst ?_ (fun _ _ _ => Or.inr (Or.inl rfl)) ?_ ?_ fun _ _ => rfl
      · simpa using present
      · exact fun slot member _ => sound.hashed slot member
      · intro slot member found free
        exact absurd (free.symm.trans (of_decide_eq_true found)) (Option.some_ne_none key).symm
    · funext other
      obtain ⟨slot, member, named⟩ := present
      have there : stored Slot.key (some key) dictionary.slots = some slot := by
        rw [← named]
        exact stored_of_mem sound.apart member (by simp [named])
      have changed : stored Slot.key (some other) (Slots.updateFirst
          (fun slot => slot.key = some key) (fun slot => { slot with val := val })
          dictionary.slots) = if some other = some key then
            (stored Slot.key (some key) dictionary.slots).map fun slot => { slot with val := val }
          else stored Slot.key (some other) dictionary.slots := stored_change fun _ => rfl
      unfold Dictionary.content
      dsimp only
      rw [changed]
      by_cases same : other = key
      · subst same
        rw [if_pos rfl, there, Function.update_self]
        rfl
      · rw [if_neg (by simpa using same), Function.update_of_ne same]
  · rw [if_neg fun both => present (sound.any_isFor.mp both.2)]
    obtain ⟨grown, same, free⟩ := sound.memDouble
    have unused : (Repeater.memDouble dictionary).content key = none := by
      rw [same]
      unfold Dictionary.content
      rw [stored_eq_none.mpr fun slot member named => present ⟨slot, member, named⟩]
      rfl
    rw [← same]
    exact ⟨grown.fill free unused, content_fill free unused _⟩

/-- An unset takes its key out of the map. -/
theorem unset (sound : dictionary.Sound) :
    (dictionaryUnset dictionary key).Sound ∧
      (dictionaryUnset dictionary key).content =
        Function.update dictionary.content key none := by
  unfold dictionaryUnset
  dsimp only
  by_cases present : ∃ slot ∈ dictionary.slots, slot.key = some key
  · rw [if_pos (sound.any_isFor.mpr present), sound.updateFirst_isFor]
    constructor
    · refine sound.updateFirst ?_ (fun _ _ _ => Or.inl rfl) ?_ (fun _ _ _ _ => rfl) ?_
      · simpa using present
      · intro slot _ _ name taken
        cases taken
      · intro slot found
        have counts : 0 < dictionary.n := by
          obtain ⟨slot, member, named⟩ := present
          rw [sound.counted]
          exact List.countP_pos_iff.mpr ⟨slot, member, by simp [named]⟩
        have named : slot.key = some key := of_decide_eq_true found
        simp [named, Slot.zero]
        omega
    · funext other
      unfold Dictionary.content
      dsimp only
      rw [stored_clear sound.apart (fun _ => rfl) (Option.some_ne_none key)
        (Option.some_ne_none other)]
      by_cases same : other = key
      · subst same
        rw [if_pos rfl, Function.update_self]
        rfl
      · rw [if_neg (by simpa using same), Function.update_of_ne same]
  · rw [if_neg fun any => present (sound.any_isFor.mp any)]
    refine ⟨sound, (Function.update_eq_self_iff.mpr ?_).symm⟩
    unfold Dictionary.content
    rw [stored_eq_none.mpr fun slot member named => present ⟨slot, member, named⟩]
    rfl

end Dictionary.Sound

variable {key : List Char}

/-- After any changes the slots stand for the map with the same changes. -/
theorem sound_run (size : Nat) (changes : List Change) :
    (run Dictionary.change (dictionaryNew size) changes).Sound ∧
      (run Dictionary.change (dictionaryNew size) changes).content =
        run Content.change (fun _ => none) changes := by
  induction changes using List.reverseRecOn with
  | nil =>
      refine ⟨.new size, funext fun key => ?_⟩
      exact Option.map_eq_none_iff.mpr (stored_eq_none.mpr fun slot member named => by
        rw [List.eq_of_mem_replicate member] at named
        cases named)
  | append_singleton changes change ih =>
      obtain ⟨sound, content⟩ := ih
      rw [run_append, run_append, run_cons, run_cons, run_nil, run_nil, ← content]
      cases change with
      | set key val => exact sound.set
      | unset key => exact sound.unset

/-- Whatever is set and unset, a search gives what the key was last set to, unless the
hash of the key is that of a free slot. -/
theorem dictionaryGet_run (size : Nat) (changes : List Change) (nonzero : dictionaryHash key ≠ 0) :
    dictionaryGet (run Dictionary.change (dictionaryNew size) changes) key =
      .ok (run Content.change (fun _ => none) changes key) := by
  obtain ⟨sound, content⟩ := sound_run size changes
  rw [sound.get nonzero, content]

theorem dictionaryGet_run_port :
    dictionaryGet (run Dictionary.change (dictionaryNew 0)
        [.set "general:port".toList (some "5500".toList), .set "mode2".toList none,
          .set "general:port".toList (some "5900".toList), .unset "mode2".toList])
        "general:port".toList = .ok (some (some "5900".toList)) :=
  dictionaryGet_run 0 _ (by decide +kernel)

end Repeater
