import Mathlib.Data.List.Perm.Basic

/-! # Items for everyone and items for one reader, under one key

A store files each item under one key: the key of its recipient, or a reserved
key when the item is meant for everyone. A reader is given what is filed under
the reserved key and what is filed under its own. It gets exactly what is meant
for it, each item once, unless an item was sent to the reserved key, or the
reader has that key itself.
-/

namespace Mailbox

variable {Key Item : Type*}

/-- An item is for everyone or for one client. -/
inductive Recipient (Key : Type*) where
  | everyone
  | client (key : Key)
deriving DecidableEq

/-- The key an item is filed under. -/
def Recipient.mark (reserved : Key) : Recipient Key → Key
  | .everyone => reserved
  | .client key => key

/-- A mark is that of a client, or the one kept for everyone. -/
theorem mark_eq_iff {reserved key : Key} {recipient : Recipient Key} :
    recipient.mark reserved = key ↔
      (recipient = .everyone ∧ reserved = key) ∨ recipient = .client key := by
  cases recipient with
  | everyone => simp only [Recipient.mark, true_and, reduceCtorEq, or_false]
  | client own =>
      simp only [Recipient.mark, reduceCtorEq, false_and, false_or, Recipient.client.injEq]

/-- The store after the items were sent. -/
def encode (reserved : Key) (sent : List (Recipient Key × Item)) : List (Key × Item) :=
  sent.map fun entry => (entry.1.mark reserved, entry.2)

variable [DecidableEq Key]

/-- The items that are stored under a key. -/
def filed (key : Key) (stored : List (Key × Item)) : List Item :=
  (stored.filter fun entry => entry.1 = key).map Prod.snd

/-- What a reader is given. -/
def listed (reserved key : Key) (stored : List (Key × Item)) : List Item :=
  filed reserved stored ++ filed key stored

/-- The items sent to a recipient. -/
def sentTo (recipient : Recipient Key) (sent : List (Recipient Key × Item)) : List Item :=
  (sent.filter fun entry => entry.1 = recipient).map Prod.snd

/-- What is meant for a reader. -/
def delivered (key : Key) (sent : List (Recipient Key × Item)) : List Item :=
  (sent.filter fun entry => entry.1 = .everyone ∨ entry.1 = .client key).map Prod.snd

variable {reserved key : Key} {sent : List (Recipient Key × Item)}

theorem filed_encode : filed key (encode reserved sent) =
    (sent.filter fun entry => entry.1.mark reserved = key).map Prod.snd := by
  rw [filed, encode, List.filter_map, List.map_map]
  rfl

/-- Two conditions that exclude each other divide what either of them keeps. -/
theorem filter_or_perm {α : Type*} {first second : α → Prop} [DecidablePred first]
    [DecidablePred second] (list : List α) (apart : ∀ a, first a → ¬ second a) :
    (list.filter fun a => first a ∨ second a).Perm
      (list.filter (fun a => first a) ++ list.filter fun a => second a) := by
  have parts := (List.filter_append_perm (fun a => decide (first a))
    (list.filter fun a => first a ∨ second a)).symm
  rw [List.filter_filter, List.filter_filter] at parts
  have left : (list.filter fun a => decide (first a) && decide (first a ∨ second a)) =
      list.filter fun a => first a := by
    apply List.filter_congr
    intro a _
    by_cases one : first a <;> simp [one]
  have right : (list.filter fun a => !decide (first a) && decide (first a ∨ second a)) =
      list.filter fun a => second a := by
    apply List.filter_congr
    intro a _
    by_cases one : first a
    · simp [one, apart a one]
    · simp [one]
  rwa [left, right] at parts

/-- A client is delivered what is sent to everyone and what is sent to it. -/
theorem delivered_perm (key : Key) (sent : List (Recipient Key × Item)) :
    (delivered key sent).Perm (sentTo .everyone sent ++ sentTo (.client key) sent) := by
  rw [delivered, sentTo, sentTo, ← List.map_append]
  apply List.Perm.map
  apply filter_or_perm
  intro entry everyone client
  rw [everyone] at client
  cases client

/-- The items under the reserved key are those for everyone and those sent to
the reserved key. -/
theorem filed_reserved_perm (reserved : Key) (sent : List (Recipient Key × Item)) :
    (filed reserved (encode reserved sent)).Perm
      (sentTo .everyone sent ++ sentTo (.client reserved) sent) := by
  have same : filed reserved (encode reserved sent) = delivered reserved sent := by
    rw [filed_encode, delivered]
    simp only [mark_eq_iff, and_true]
  rw [same]
  exact delivered_perm reserved sent

theorem filed_of_ne (other : key ≠ reserved) :
    filed key (encode reserved sent) = sentTo (.client key) sent := by
  rw [filed_encode, sentTo]
  simp only [mark_eq_iff, other.symm, and_false, false_or]

theorem sentTo_eq_nil {recipient : Recipient Key} :
    sentTo recipient sent = [] ↔ ∀ entry ∈ sent, entry.1 ≠ recipient := by
  simp only [sentTo, List.map_eq_nil_iff, List.filter_eq_nil_iff, decide_eq_true_eq, ne_eq]

/-- Only an empty list can be added without a difference. -/
theorem append_perm_self_iff {α : Type*} {list more : List α} :
    (list ++ more).Perm list ↔ more = [] := by
  constructor
  · intro same
    have length := same.length_eq
    rw [List.length_append] at length
    exact List.eq_nil_of_length_eq_zero (Nat.add_eq_left.mp length)
  · rintro rfl
    rw [List.append_nil]

/-- A reader gets what is meant for it, each item once, if and only if nothing
was sent to the reserved key and, when the reader has that key, nothing to
everyone. -/
theorem listed_perm_delivered_iff :
    (listed reserved key (encode reserved sent)).Perm (delivered key sent) ↔
      ∀ entry ∈ sent, entry.1 ≠ .client reserved ∧ (key = reserved → entry.1 ≠ .everyone) := by
  have reservedFiled := filed_reserved_perm reserved sent
  by_cases own : key = reserved
  · subst own
    have twice : (listed key key (encode key sent)).Perm
        (delivered key sent ++ (sentTo .everyone sent ++ sentTo (.client key) sent)) :=
      (reservedFiled.trans (delivered_perm key sent).symm).append reservedFiled
    rw [twice.congr_left, append_perm_self_iff, List.append_eq_nil_iff, sentTo_eq_nil,
      sentTo_eq_nil]
    constructor
    · rintro ⟨noneForAll, noneMisled⟩ entry member
      exact ⟨noneMisled entry member, fun _ => noneForAll entry member⟩
    · intro clean
      exact ⟨fun entry member => (clean entry member).2 rfl,
        fun entry member => (clean entry member).1⟩
  · have once : (listed reserved key (encode reserved sent)).Perm
        (delivered key sent ++ sentTo (.client reserved) sent) := by
      calc
        (listed reserved key (encode reserved sent)).Perm
            (sentTo .everyone sent ++ sentTo (.client reserved) sent ++
              sentTo (.client key) sent) := by
          rw [listed, filed_of_ne own]
          exact reservedFiled.append_right _
        List.Perm _ (sentTo .everyone sent ++ sentTo (.client key) sent ++
            sentTo (.client reserved) sent) := by
          rw [List.append_assoc, List.append_assoc]
          exact List.perm_append_comm.append_left _
        List.Perm _ (delivered key sent ++ sentTo (.client reserved) sent) :=
          (delivered_perm key sent).symm.append_right _
    rw [once.congr_left, append_perm_self_iff, sentTo_eq_nil]
    constructor
    · intro clean entry member
      exact ⟨clean entry member, fun same => (own same).elim⟩
    · intro clean entry member
      exact (clean entry member).1

end Mailbox
