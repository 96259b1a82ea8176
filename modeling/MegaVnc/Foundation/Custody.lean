import Mathlib.Data.Set.Insert
import Mathlib.Logic.Function.Basic

/-! # Resources and their owners

A store gives each resource in use its content, and each owner may hold one
resource. Owners keep their resources (`Custody.Keeps`) when each of them holds a
resource in use of its own, whose content suits the owner. The resources in use
that nobody holds are loose (`Custody.loose`).
-/

namespace Custody

variable {Owner Resource Content : Type*}

/-- Each owner's resource is in use, suits it, and is nobody else's. -/
structure Keeps (suits : Owner → Content → Prop) (held : Owner → Option Resource)
    (store : Resource → Option Content) : Prop where
  stored : ∀ owner resource, held owner = some resource →
    ∃ content, store resource = some content ∧ suits owner content
  sole : ∀ first second resource, held first = some resource → held second = some resource →
    first = second

/-- The resources in use that nobody holds. -/
def loose (held : Owner → Option Resource) (store : Resource → Option Content) : Set Resource :=
  { resource | store resource ≠ none ∧ ∀ owner, held owner ≠ some resource }

variable {suits next : Owner → Content → Prop} {held : Owner → Option Resource}
  {store : Resource → Option Content} {owner : Owner} {resource : Resource} {content : Content}

/-- What is not in use is held by nobody. -/
theorem Keeps.not_held (keeps : Keeps suits held store) (unused : store resource = none)
    (owner : Owner) : held owner ≠ some resource := by
  intro holds
  obtain ⟨content, present, -⟩ := keeps.stored owner resource holds
  rw [unused] at present
  cases present

/-- What suits may change where somebody holds something. -/
theorem Keeps.imp (keeps : Keeps suits held store)
    (implies : ∀ owner resource, held owner = some resource → ∀ content, suits owner content →
      next owner content) : Keeps next held store where
  stored owner resource holds := by
    obtain ⟨content, present, fits⟩ := keeps.stored owner resource holds
    exact ⟨content, present, implies owner resource holds content fits⟩
  sole := keeps.sole

section Store

variable [DecidableEq Resource]

/-- A resource that nobody holds comes into use, changes or goes. -/
theorem Keeps.update_other (keeps : Keeps suits held store)
    (other : ∀ owner, held owner ≠ some resource) (content : Option Content) :
    Keeps suits held (Function.update store resource content) where
  stored owner taken holds := by
    obtain ⟨present, stored, fits⟩ := keeps.stored owner taken holds
    have different : taken ≠ resource := by
      rintro rfl
      exact other owner holds
    exact ⟨present, (Function.update_of_ne different _ _).trans stored, fits⟩
  sole := keeps.sole

/-- The content of a held resource changes, with what suits its owner. -/
theorem Keeps.change (keeps : Keeps suits held store) (change : Content → Content)
    (own : ∀ owner content, held owner = some resource → suits owner content →
      next owner (change content))
    (others : ∀ owner taken content, held owner = some taken → taken ≠ resource →
      suits owner content → next owner content) :
    Keeps next held (Function.update store resource ((store resource).map change)) where
  stored owner taken holds := by
    obtain ⟨found, stored, suited⟩ := keeps.stored owner taken holds
    by_cases same : taken = resource
    · subst same
      rw [Function.update_self, stored]
      exact ⟨change found, rfl, own owner found holds suited⟩
    · exact ⟨found, (Function.update_of_ne same _ _).trans stored,
        others owner taken found holds same suited⟩
  sole := keeps.sole

end Store

section Owners

variable [DecidableEq Owner]

/-- An owner takes a resource in use that nobody holds. -/
theorem Keeps.take (keeps : Keeps suits held store) (other : ∀ owner, held owner ≠ some resource)
    (present : store resource = some content) (fits : next owner content)
    (others : ∀ second, second ≠ owner → ∀ content, suits second content → next second content) :
    Keeps next (Function.update held owner (some resource)) store where
  stored second taken holds := by
    by_cases same : second = owner
    · subst same
      rw [Function.update_self, Option.some.injEq] at holds
      subst holds
      exact ⟨content, present, fits⟩
    · rw [Function.update_of_ne same] at holds
      obtain ⟨found, stored, suited⟩ := keeps.stored second taken holds
      exact ⟨found, stored, others second same found suited⟩
  sole first second taken holdsFirst holdsSecond := by
    by_cases one : first = owner
    · by_cases two : second = owner
      · exact one.trans two.symm
      · subst one
        rw [Function.update_self, Option.some.injEq] at holdsFirst
        rw [Function.update_of_ne two, ← holdsFirst] at holdsSecond
        exact (other second holdsSecond).elim
    · rw [Function.update_of_ne one] at holdsFirst
      by_cases two : second = owner
      · subst two
        rw [Function.update_self, Option.some.injEq] at holdsSecond
        rw [← holdsSecond] at holdsFirst
        exact (other first holdsFirst).elim
      · rw [Function.update_of_ne two] at holdsSecond
        exact keeps.sole first second taken holdsFirst holdsSecond

/-- An owner lets its resource go. -/
theorem Keeps.drop (keeps : Keeps suits held store) (owner : Owner)
    (others : ∀ second, second ≠ owner → ∀ content, suits second content → next second content) :
    Keeps next (Function.update held owner none) store where
  stored second taken holds := by
    by_cases same : second = owner
    · subst same
      rw [Function.update_self] at holds
      cases holds
    · rw [Function.update_of_ne same] at holds
      obtain ⟨found, stored, suited⟩ := keeps.stored second taken holds
      exact ⟨found, stored, others second same found suited⟩
  sole first second taken holdsFirst holdsSecond := by
    by_cases one : first = owner
    · subst one
      rw [Function.update_self] at holdsFirst
      cases holdsFirst
    · by_cases two : second = owner
      · subst two
        rw [Function.update_self] at holdsSecond
        cases holdsSecond
      · rw [Function.update_of_ne one] at holdsFirst
        rw [Function.update_of_ne two] at holdsSecond
        exact keeps.sole first second taken holdsFirst holdsSecond

/-- After it has been let go, nobody holds a resource. -/
theorem Keeps.not_held_of_drop (keeps : Keeps suits held store)
    (holds : held owner = some resource) (second : Owner) :
    Function.update held owner none second ≠ some resource := by
  by_cases same : second = owner
  · subst same
    rw [Function.update_self]
    exact Option.some_ne_none resource |>.symm
  · rw [Function.update_of_ne same]
    exact fun also => same (keeps.sole second owner resource also holds)

/-- What an owner takes is no longer loose. -/
theorem loose_take (free : held owner = none) :
    loose (Function.update held owner (some resource)) store = loose held store \ {resource} := by
  ext other
  constructor
  · rintro ⟨inUse, unheld⟩
    refine ⟨⟨inUse, fun holder holds => unheld holder ?_⟩, ?_⟩
    · rw [Function.update_of_ne]
      · exact holds
      · rintro rfl
        rw [free] at holds
        cases holds
    · rintro rfl
      exact unheld owner (Function.update_self _ _ _)
  · rintro ⟨⟨inUse, unheld⟩, different⟩
    refine ⟨inUse, fun holder holds => ?_⟩
    by_cases same : holder = owner
    · rw [same, Function.update_self, Option.some.injEq] at holds
      exact different holds.symm
    · rw [Function.update_of_ne same] at holds
      exact unheld holder holds

/-- What an owner lets go becomes loose. -/
theorem Keeps.loose_drop (keeps : Keeps suits held store) (holds : held owner = some resource) :
    loose (Function.update held owner none) store = insert resource (loose held store) := by
  ext other
  constructor
  · rintro ⟨inUse, unheld⟩
    by_cases same : other = resource
    · exact Or.inl same
    · refine Or.inr ⟨inUse, fun holder also => unheld holder ?_⟩
      rw [Function.update_of_ne]
      · exact also
      · rintro rfl
        rw [holds, Option.some.injEq] at also
        exact same also.symm
  · rintro (rfl | ⟨inUse, unheld⟩)
    · obtain ⟨content, present, -⟩ := keeps.stored owner other holds
      exact ⟨present ▸ Option.some_ne_none content, keeps.not_held_of_drop holds⟩
    · refine ⟨inUse, fun holder also => ?_⟩
      by_cases same : holder = owner
      · rw [same, Function.update_self] at also
        cases also
      · rw [Function.update_of_ne same] at also
        exact unheld holder also

end Owners

section Loose

variable [DecidableEq Resource]

/-- A resource comes into use. -/
theorem loose_open (unheld : ∀ owner, held owner ≠ some resource) (content : Content) :
    loose held (Function.update store resource (some content)) =
      insert resource (loose held store) := by
  ext other
  by_cases same : other = resource
  · subst same
    refine iff_of_true ⟨?_, unheld⟩ (Or.inl rfl)
    rw [Function.update_self]
    exact Option.some_ne_none content
  · refine Iff.trans (and_congr_left' ?_) (or_iff_right same).symm
    rw [Function.update_of_ne same]

/-- A resource goes out of use. -/
theorem loose_close :
    loose held (Function.update store resource none) = loose held store \ {resource} := by
  ext other
  by_cases same : other = resource
  · subst same
    refine iff_of_false (fun inUse => ?_) fun kept => kept.2 rfl
    exact inUse.1 (Function.update_self _ _ _)
  · refine Iff.trans (and_congr_left' ?_) (and_iff_left same).symm
    rw [Function.update_of_ne same]

/-- Changing what is behind a resource leaves who has it. -/
theorem loose_change (change : Content → Content) :
    loose held (Function.update store resource ((store resource).map change)) =
      loose held store := by
  ext other
  refine and_congr_left' (not_congr ?_)
  by_cases same : other = resource
  · rw [same, Function.update_self, Option.map_eq_none_iff]
  · rw [Function.update_of_ne same]

end Loose

end Custody
