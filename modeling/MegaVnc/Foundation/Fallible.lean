import Mathlib.Logic.Basic

/-! # Computations that may throw

A body that may throw is a chain of binds in `Except`. The lemmas below take
such a chain apart at its successful outcome, one link at a time, so that a
function is read back without unfolding the monad.
-/

namespace Fallible

variable {ε α β γ δ : Type}

/-- Throw when the condition holds. -/
def throwIf (condition : Prop) [Decidable condition] (exception : ε) : Except ε Unit :=
  if condition then .error exception else .ok ()

/-- The value of an optional, or the exception given for its absence. -/
def orElseThrow (value : Option α) (exception : ε) : Except ε α :=
  match value with
  | some present => .ok present
  | none => .error exception

/-- A computation and what follows it succeed exactly when each of them does. -/
theorem bind_eq_ok {computation : Except ε α} {rest : α → Except ε β} {result : β} :
    (computation >>= rest) = .ok result ↔
      ∃ value, computation = .ok value ∧ rest value = .ok result := by
  cases computation with
  | error exception =>
      change Except.error exception = .ok result ↔ _
      simp only [reduceCtorEq, false_and, exists_false]
  | ok value =>
      change rest value = .ok result ↔ _
      simp only [Except.ok.injEq, exists_eq_left']

@[simp] theorem ok_bind (value : α) (rest : α → Except ε β) :
    (Except.ok value >>= rest) = rest value := rfl

@[simp] theorem error_bind (exception : ε) (rest : α → Except ε β) :
    ((Except.error exception : Except ε α) >>= rest) = .error exception := rfl

theorem throwIf_eq_ok {condition : Prop} [Decidable condition] {exception : ε} {value : Unit} :
    throwIf condition exception = .ok value ↔ ¬ condition := by
  unfold throwIf
  split <;> simp_all

theorem orElseThrow_eq_ok {value : Option α} {exception : ε} {present : α} :
    orElseThrow value exception = .ok present ↔ value = some present := by
  cases value <;> simp [orElseThrow]

theorem pure_eq_ok {value result : α} :
    (pure value : Except ε α) = .ok result ↔ value = result :=
  Except.ok.injEq value result ▸ Iff.rfl

/-- Computations of a list that each return under a condition. -/
theorem mapM_eq_ok {compute : α → Except ε β} {returns : α → Prop} {result : α → β}
    {items : List α} {values : List β}
    (each : ∀ item ∈ items, ∀ value,
      compute item = .ok value ↔ returns item ∧ value = result item) :
    items.mapM compute = .ok values ↔
      (∀ item ∈ items, returns item) ∧ values = items.map result := by
  induction items generalizing values with
  | nil =>
      rw [List.mapM_nil, pure_eq_ok]
      simp only [List.not_mem_nil, false_imp_iff, implies_true, true_and, List.map_nil, eq_comm]
  | cons item rest ih =>
      have later (values : List β) : rest.mapM compute = .ok values ↔ _ := ih fun item member =>
        each item (List.mem_cons_of_mem _ member)
      rw [List.mapM_cons, bind_eq_ok]
      simp only [each item List.mem_cons_self, bind_eq_ok, later, pure_eq_ok,
        List.forall_mem_cons, List.map_cons]
      constructor
      · rintro ⟨_, ⟨first, rfl⟩, _, ⟨others, rfl⟩, rfl⟩
        exact ⟨⟨first, others⟩, rfl⟩
      · rintro ⟨⟨first, others⟩, rfl⟩
        exact ⟨_, ⟨first, rfl⟩, _, ⟨others, rfl⟩, rfl⟩

/-! ### What a computation throws -/

/-- Whatever the computation throws is allowed. -/
def Throws (allowed : ε → Prop) (computation : Except ε α) : Prop :=
  ∀ exception, computation = .error exception → allowed exception

section Throws

variable {allowed : ε → Prop} {computation : Except ε α}

@[simp] theorem throws_ok (value : α) : Throws allowed (Except.ok value : Except ε α) := by
  intro exception thrown
  cases thrown

@[simp] theorem throws_pure (value : α) : Throws allowed (pure value : Except ε α) :=
  throws_ok value

@[simp] theorem throws_error {exception : ε} :
    Throws allowed (Except.error exception : Except ε α) ↔ allowed exception := by
  constructor
  · intro throws
    exact throws exception rfl
  · rintro accepted _ ⟨rfl⟩
    exact accepted

@[simp] theorem throws_throwIf {condition : Prop} [Decidable condition] {exception : ε} :
    Throws allowed (throwIf condition exception) ↔ (condition → allowed exception) := by
  unfold throwIf
  by_cases holds : condition
  · simp only [holds, ↓reduceIte, throws_error, forall_const]
  · simp only [holds, ↓reduceIte, throws_ok, false_imp_iff]

@[simp] theorem throws_orElseThrow {value : Option α} {exception : ε} :
    Throws allowed (orElseThrow value exception) ↔ (value = none → allowed exception) := by
  cases value with
  | none => simp only [orElseThrow, throws_error, forall_const]
  | some present => simp only [orElseThrow, throws_ok, reduceCtorEq, false_imp_iff]

@[simp] theorem throws_bind {rest : α → Except ε β} :
    Throws allowed (computation >>= rest) ↔ Throws allowed computation ∧
      ∀ value, computation = .ok value → Throws allowed (rest value) := by
  cases computation with
  | error exception =>
      simp only [error_bind, throws_error, reduceCtorEq, false_imp_iff, implies_true, and_true]
  | ok value => simp only [ok_bind, throws_ok, Except.ok.injEq, forall_eq', true_and]

@[simp] theorem throws_map {result : α → β} :
    Throws allowed (computation.map result) ↔ Throws allowed computation := by
  cases computation with
  | error exception => simp only [Except.map, throws_error]
  | ok value => simp only [Except.map, throws_ok]

end Throws

/-! ### Two computations side by side -/

/-- Both computations throw, or both return and their values are related. -/
def Together (related : α → β → Prop) : Except ε α → Except ε β → Prop
  | .ok first, .ok second => related first second
  | .error _, .error _ => True
  | _, _ => False

variable {related : α → β → Prop} {later : γ → δ → Prop} {first : Except ε α}
  {second : Except ε β}

/-- Two computations succeed together when each success of one comes with a related one of
the other. -/
theorem Together.of_ok
    (forth : ∀ value, first = .ok value → ∃ other, second = .ok other ∧ related value other)
    (back : ∀ other, second = .ok other → ∃ value, first = .ok value) :
    Together related first second := by
  cases first with
  | ok value =>
      obtain ⟨other, rfl, same⟩ := forth value rfl
      exact same
  | error exception =>
      cases second with
      | ok other =>
          obtain ⟨value, thrown⟩ := back other rfl
          cases thrown
      | error other => trivial

/-- Computations with the same outcomes. -/
theorem Together.of_iff {first second : Except ε α}
    (same : ∀ value, first = .ok value ↔ second = .ok value) :
    Together (fun value other => first = .ok value ∧ value = other) first second :=
  .of_ok (fun value returned => ⟨value, (same value).mp returned, returned, rfl⟩)
    fun other returned => ⟨other, (same other).mpr returned⟩

/-- Related results are continued in step. -/
theorem Together.bind {rest : α → Except ε γ} {others : β → Except ε δ}
    (together : Together related first second)
    (continues : ∀ value other, related value other → Together later (rest value) (others other)) :
    Together later (first >>= rest) (second >>= others) := by
  cases first with
  | ok value =>
      cases second with
      | ok other => exact continues value other together
      | error exception => exact together.elim
  | error exception =>
      cases second with
      | ok other => exact together.elim
      | error other => trivial

/-- Two computations with the same first link stay together when their rests do. -/
theorem Together.after {rest : α → Except ε γ} {others : α → Except ε δ}
    (continues : ∀ value, first = .ok value → Together later (rest value) (others value)) :
    Together later (first >>= rest) (first >>= others) := by
  cases first with
  | ok value => exact continues value rfl
  | error exception => trivial

end Fallible
