import Mathlib.Data.List.Infix

/-! # Resolving Unix paths

Resolving one path against another is associative, with the empty path as its
unit. A relative path resolved in a relative directory and then made absolute
is therefore the path resolved in the absolute directory.
-/

namespace UnixPath

/-- A path that starts at the root. -/
def IsAbsolute (path : String) : Prop :=
  path.toList.head? = some '/'

instance (path : String) : Decidable (IsAbsolute path) :=
  inferInstanceAs (Decidable (_ = _))

/-- The path `other` seen from the directory `path`. -/
def resolve (path other : String) : String :=
  if path = "" ∨ IsAbsolute other then other
  else if other = "" then path
  else if path.toList.getLast? = some '/' then path ++ other
  else path ++ "/" ++ other

variable {base path other : String}

@[simp] theorem empty_resolve (other : String) : resolve "" other = other := by
  simp only [resolve, true_or, ↓reduceIte]

theorem resolve_of_isAbsolute (absolute : IsAbsolute other) : resolve path other = other := by
  simp only [resolve, absolute, or_true, ↓reduceIte]

theorem not_isAbsolute_empty : ¬ IsAbsolute "" := by decide

@[simp] theorem resolve_empty (path : String) : resolve path "" = path := by
  by_cases unnamed : path = ""
  · rw [unnamed, empty_resolve]
  · simp only [resolve, unnamed, not_isAbsolute_empty, or_self, ↓reduceIte]

theorem toList_eq_nil : path.toList = [] ↔ path = "" := by
  rw [← String.toList_empty, String.toList_inj]

/-- A relative name resolved in a directory: the directory, a separator unless
the directory ends with one, and the name. -/
theorem toList_resolve (named : path ≠ "") (relative : ¬ IsAbsolute other) (present : other ≠ "") :
    (resolve path other).toList =
      path.toList ++ (if path.toList.getLast? = some '/' then [] else ['/']) ++ other.toList := by
  simp only [resolve, named, relative, or_self, present, ↓reduceIte]
  split
  · simp only [String.toList_append, List.append_nil]
  · simp only [String.toList_append, List.append_assoc]
    rfl

/-- A resolved path ends with the name that was resolved. -/
theorem suffix_resolve (path : String) (present : other ≠ "") :
    other.toList <:+ (resolve path other).toList := by
  by_cases unnamed : path = ""
  · rw [unnamed, empty_resolve]
  by_cases absolute : IsAbsolute other
  · rw [resolve_of_isAbsolute absolute]
  · rw [toList_resolve unnamed absolute present]
    exact List.suffix_append _ _

/-- Resolving against a path never gives the empty path. -/
theorem resolve_eq_empty (named : path ≠ "") : resolve path other ≠ "" := by
  by_cases absolute : IsAbsolute other
  · rw [resolve_of_isAbsolute absolute]
    rintro rfl
    exact not_isAbsolute_empty absolute
  · by_cases present : other = ""
    · rwa [present, resolve_empty]
    · intro vanished
      have letters := toList_resolve named absolute present
      rw [vanished, String.toList_empty] at letters
      have := List.append_eq_nil_iff.mp letters.symm
      exact present (toList_eq_nil.mp this.2)

/-- A relative path is resolved to an absolute one against absolute ones only. -/
theorem isAbsolute_resolve (named : path ≠ "") (relative : ¬ IsAbsolute other) :
    IsAbsolute (resolve path other) ↔ IsAbsolute path := by
  by_cases present : other = ""
  · rw [present, resolve_empty]
  · unfold IsAbsolute
    rw [toList_resolve named relative present, List.append_assoc,
      List.head?_append_of_ne_nil _ fun empty => named (toList_eq_nil.mp empty)]

/-- A resolved path ends like the path that was resolved. -/
theorem getLast?_resolve (named : path ≠ "") (relative : ¬ IsAbsolute other)
    (present : other ≠ "") :
    (resolve path other).toList.getLast? = other.toList.getLast? := by
  rw [toList_resolve named relative present,
    List.getLast?_append_of_ne_nil _ fun empty => present (toList_eq_nil.mp empty)]

/-- It makes no difference which two of three paths are resolved first. -/
theorem resolve_assoc (base path other : String) :
    resolve (resolve base path) other = resolve base (resolve path other) := by
  by_cases absolute : IsAbsolute other
  · rw [resolve_of_isAbsolute absolute, resolve_of_isAbsolute absolute,
      resolve_of_isAbsolute absolute]
  by_cases unnamed : path = ""
  · rw [unnamed, resolve_empty, empty_resolve]
  by_cases rooted : IsAbsolute path
  · rw [resolve_of_isAbsolute rooted,
      resolve_of_isAbsolute ((isAbsolute_resolve unnamed absolute).mpr rooted)]
  by_cases missing : base = ""
  · rw [missing, empty_resolve, empty_resolve]
  by_cases absent : other = ""
  · rw [absent, resolve_empty, resolve_empty]
  · have relative : ¬ IsAbsolute (resolve path other) :=
      fun starts => rooted ((isAbsolute_resolve unnamed absolute).mp starts)
    rw [← String.toList_inj, toList_resolve (resolve_eq_empty missing) absolute absent,
      getLast?_resolve missing rooted unnamed, toList_resolve missing rooted unnamed,
      toList_resolve missing relative (resolve_eq_empty unnamed),
      toList_resolve unnamed absolute absent]
    simp only [List.append_assoc]

end UnixPath
