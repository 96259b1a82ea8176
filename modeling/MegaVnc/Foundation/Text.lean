import Mathlib.Algebra.Order.Group.Int
import Mathlib.Algebra.Ring.Nat
import Mathlib.Data.List.DropRight

/-! # Decimal numbers and separated fields as text

Printing and reading of decimal numbers, the `%d` and `%ld` directives of a
format string, and splitting at a separator as Java's `String.split` does it:
trailing empty parts are dropped, and a text without the separator is its own
only part.
-/

namespace Text

/-- `%d` and `%ld`. -/
def decimal : Int → List Char
  | .ofNat magnitude => Nat.toDigits 10 magnitude
  | .negSucc magnitude => '-' :: Nat.toDigits 10 (magnitude + 1)

/-- `printf` with the directives `%d` and `%ld`. -/
def printf : List Char → List Int → List Char
  | '%' :: 'd' :: format, argument :: arguments => decimal argument ++ printf format arguments
  | '%' :: 'l' :: 'd' :: format, argument :: arguments =>
      decimal argument ++ printf format arguments
  | char :: format, arguments => char :: printf format arguments
  | [], _ => []

/-- `snprintf` into a buffer that also holds the terminating zero. -/
def snprintf (size : Nat) (format : List Char) (arguments : List Int) : List Char :=
  (printf format arguments).take (size - 1)

/-- `String.split` of Java for one separator, which leaves out the empty fields at the end. -/
def split (separator : Char) (text : List Char) : List (List Char) :=
  if separator ∈ text then (text.splitOn separator).rdropWhile List.isEmpty else [text]

/-- The zeros of the decimal digits of Unicode that are one UTF-16 unit; nine more digits
follow each. -/
def zeros : List Nat :=
  [0x30, 0x660, 0x6F0, 0x7C0, 0x966, 0x9E6, 0xA66, 0xAE6, 0xB66, 0xBE6, 0xC66, 0xCE6, 0xD66,
    0xDE6, 0xE50, 0xED0, 0xF20, 0x1040, 0x1090, 0x17E0, 0x1810, 0x1946, 0x19D0, 0x1A80, 0x1A90,
    0x1B50, 0x1BB0, 0x1C40, 0x1C50, 0xA620, 0xA8D0, 0xA900, 0xA9D0, 0xA9F0, 0xAA50, 0xABF0,
    0xFF10]

/-- `Character.digit` with the radix ten. -/
def digit (char : Char) : Option Nat :=
  (zeros.find? fun first => first ≤ char.toNat ∧ char.toNat < first + 10).map fun first =>
    char.toNat - first

/-- The value of one digit or more. -/
def parseDigits (digits : List Char) : Option Nat :=
  if digits = [] then none
  else digits.foldlM (fun value char => (digit char).map fun next => 10 * value + next) 0

/-- An optional sign and at least one digit. -/
def parseDecimal : List Char → Option Int
  | '-' :: digits => (parseDigits digits).map fun magnitude => -magnitude
  | '+' :: digits => (parseDigits digits).map fun magnitude => magnitude
  | digits => (parseDigits digits).map fun magnitude => magnitude

/-- A decimal number within the bounds. -/
def parseWithin (low high : Int) (text : List Char) : Option Int :=
  (parseDecimal text).filter fun value => low ≤ value ∧ value ≤ high

/-- The digits of ASCII come first. -/
theorem digit_of_isDigit {char : Char} (isDigit : char.isDigit = true) :
    digit char = some (char.toNat - '0'.toNat) := by
  have bounds : 0x30 ≤ char.toNat ∧ char.toNat < 0x30 + 10 := by
    simp only [Char.isDigit, Bool.and_eq_true, decide_eq_true_eq, UInt32.le_iff_toNat_le]
      at isDigit
    exact ⟨isDigit.1, Nat.lt_succ_of_le isDigit.2⟩
  have ascii : zeros.find? (fun first => first ≤ char.toNat ∧ char.toNat < first + 10) =
      some 0x30 := List.find?_cons_of_pos (decide_eq_true bounds)
  rw [digit, ascii]
  rfl

/-- Digits are read as the number they write. -/
theorem foldlM_digit {digits : List Char} (areDigits : ∀ char ∈ digits, char.isDigit = true)
    (value : Nat) :
    digits.foldlM (fun value char => (digit char).map fun next => 10 * value + next) value =
      some (Nat.ofDigitChars 10 digits value) := by
  induction digits generalizing value with
  | nil => rfl
  | cons char rest ih =>
      rw [List.foldlM_cons, digit_of_isDigit (areDigits char List.mem_cons_self)]
      exact ih (fun later member => areDigits later (List.mem_cons_of_mem _ member)) _

theorem parseDigits_toDigits (value : Nat) : parseDigits (Nat.toDigits 10 value) = some value := by
  rw [parseDigits, if_neg Nat.toDigits_ne_nil, foldlM_digit fun char member =>
    Nat.isDigit_of_mem_toDigits (by decide) (by decide) member, Nat.ofDigitChars_ten_toDigits]

example : parseDigits ['٢', '२'] = some 22 := by decide

/-- A digit is neither a sign nor a separator. -/
theorem ne_of_mem_toDigits {value : Nat} {char : Char} (member : char ∈ Nat.toDigits 10 value)
    (other : Char) (separator : other.isDigit = false) : char ≠ other := by
  intro same
  have digit := Nat.isDigit_of_mem_toDigits (by decide) (by decide) member
  rw [same, separator] at digit
  cases digit

/-- A number that has been written is read back. -/
theorem parseDecimal_decimal (value : Int) : parseDecimal (decimal value) = some value := by
  cases value with
  | ofNat magnitude =>
      have unsigned : parseDecimal (Nat.toDigits 10 magnitude) =
          (parseDigits (Nat.toDigits 10 magnitude)).map fun magnitude => (magnitude : Int) := by
        unfold parseDecimal
        split
        · next digits same =>
            have minus : '-' ∈ Nat.toDigits 10 magnitude := same ▸ List.mem_cons_self
            exact (ne_of_mem_toDigits minus '-' rfl rfl).elim
        · next digits same =>
            have plus : '+' ∈ Nat.toDigits 10 magnitude := same ▸ List.mem_cons_self
            exact (ne_of_mem_toDigits plus '+' rfl rfl).elim
        · rfl
      rw [decimal, unsigned, parseDigits_toDigits]
      rfl
  | negSucc magnitude =>
      change (parseDigits (Nat.toDigits 10 (magnitude + 1))).map
        (fun magnitude => -(magnitude : Int)) = _
      rw [parseDigits_toDigits]
      rfl

theorem parseWithin_decimal {low high value : Int} :
    parseWithin low high (decimal value) =
      if low ≤ value ∧ value ≤ high then some value else none := by
  simp only [parseWithin, parseDecimal_decimal, Option.filter_some, decide_eq_true_eq]

/-- A printed number holds no separator. -/
theorem not_mem_decimal {value : Int} {separator : Char} (notDigit : separator.isDigit = false)
    (notMinus : separator ≠ '-') : separator ∉ decimal value := by
  intro member
  cases value with
  | ofNat magnitude => exact ne_of_mem_toDigits member _ notDigit rfl
  | negSucc magnitude =>
      rcases List.mem_cons.mp member with sign | digit
      · exact notMinus sign
      · exact ne_of_mem_toDigits digit _ notDigit rfl

/-- What is printed comes from the format or from a number. -/
theorem mem_printf {char : Char} {format : List Char} {arguments : List Int}
    (member : char ∈ printf format arguments) :
    char ∈ format ∨ ∃ value, char ∈ decimal value := by
  fun_induction printf format arguments with
  | case1 format argument arguments ih =>
      rcases List.mem_append.mp member with number | later
      · exact Or.inr ⟨argument, number⟩
      · exact (ih later).imp_left fun inside => by simp only [List.mem_cons, inside, or_true]
  | case2 format argument arguments ih =>
      rcases List.mem_append.mp member with number | later
      · exact Or.inr ⟨argument, number⟩
      · exact (ih later).imp_left fun inside => by simp only [List.mem_cons, inside, or_true]
  | case3 first format arguments _ _ ih =>
      rcases List.mem_cons.mp member with rfl | later
      · exact Or.inl List.mem_cons_self
      · exact (ih later).imp_left (List.mem_cons_of_mem _)
  | case4 => exact Or.inl member

/-- A character that is in no number and not in the format is not printed. -/
theorem not_mem_snprintf {char : Char} {size : Nat} {format : List Char} {arguments : List Int}
    (notDigit : char.isDigit = false) (notMinus : char ≠ '-') (absent : char ∉ format) :
    char ∉ snprintf size format arguments := by
  intro member
  rcases mem_printf (List.mem_of_mem_take member) with inside | ⟨value, number⟩
  · exact absent inside
  · exact not_mem_decimal notDigit notMinus number

theorem decimal_ne_nil (value : Int) : decimal value ≠ [] := by
  cases value with
  | ofNat magnitude => exact Nat.toDigits_ne_nil
  | negSucc magnitude => exact List.cons_ne_nil _ _

/-- The length of a printed number, its sign included. -/
theorem length_decimal_le {value : Int} {digits : Nat} (positive : 0 < digits)
    (bounded : value.natAbs < 10 ^ digits) : (decimal value).length ≤ digits + 1 := by
  cases value with
  | ofNat magnitude =>
      have short := (Nat.length_toDigits_le_iff (b := 10) (by decide) positive).mpr bounded
      exact Nat.le_succ_of_le short
  | negSucc magnitude =>
      have short := (Nat.length_toDigits_le_iff (b := 10) (by decide) positive).mpr bounded
      exact Nat.succ_le_succ short

theorem length_decimal_le_of_nonneg {value : Int} {digits : Nat} (positive : 0 < digits)
    (nonneg : 0 ≤ value) (bounded : value < 10 ^ digits) : (decimal value).length ≤ digits := by
  obtain ⟨magnitude, rfl⟩ := Int.eq_ofNat_of_zero_le nonneg
  exact (Nat.length_toDigits_le_iff (b := 10) (by decide) positive).mpr (by exact_mod_cast bounded)

/-- Splitting undoes joining when no field holds the separator and none is
empty. -/
theorem split_intercalate {separator : Char} {fields : List (List Char)}
    (clean : ∀ field ∈ fields, separator ∉ field) (filled : ∀ field ∈ fields, field ≠ [])
    (present : fields ≠ []) : split separator ([separator].intercalate fields) = fields := by
  have parts : ([separator].intercalate fields).splitOn separator = fields :=
    List.splitOn_intercalate separator clean present
  have kept : fields.rdropWhile List.isEmpty = fields := by
    rw [List.rdropWhile_eq_self_iff]
    intro _ empty
    exact filled _ (List.getLast_mem present) (List.isEmpty_iff.mp empty)
  unfold split
  split
  · rw [parts, kept]
  · next absent => exact (List.splitOn_eq_singleton absent).symm.trans parts

/-- Joined fields keep their characters. -/
theorem mem_intercalate {separator char : Char} {fields : List (List Char)} {field : List Char}
    (member : field ∈ fields) (inside : char ∈ field) :
    char ∈ [separator].intercalate fields := by
  induction fields with
  | nil => cases member
  | cons first rest ih =>
      cases rest with
      | nil =>
          rw [List.intercalate_singleton]
          exact List.mem_singleton.mp member ▸ inside
      | cons second rest =>
          rw [List.intercalate_cons_cons]
          rcases List.mem_cons.mp member with rfl | later
          · exact List.mem_append_left _ (List.mem_append_left _ inside)
          · exact List.mem_append_right _ (ih later)

/-- The parts of a text are made of its characters. -/
theorem mem_of_mem_split {separator char : Char} {text token : List Char}
    (member : token ∈ split separator text) (inside : char ∈ token) : char ∈ text := by
  unfold split at member
  split at member
  · have whole : [separator].intercalate (text.splitOn separator) = text :=
      List.intercalate_splitOn separator
    rw [← whole]
    exact mem_intercalate ((List.rdropWhile_prefix _ _).subset member) inside
  · exact List.mem_singleton.mp member ▸ inside

/-- A key and a value joined by a separator come apart again. -/
theorem split_pair {separator : Char} {key value : List Char} (cleanKey : separator ∉ key)
    (cleanValue : separator ∉ value) (namedKey : key ≠ []) (filled : value ≠ []) :
    split separator (key ++ separator :: value) = [key, value] := by
  have joined : key ++ separator :: value = [separator].intercalate [key, value] := by
    simp [List.intercalate, List.intersperse]
  rw [joined]
  apply split_intercalate
  · simp only [List.forall_mem_cons]
    exact ⟨cleanKey, cleanValue, fun _ member => by cases member⟩
  · simp only [List.forall_mem_cons]
    exact ⟨namedKey, filled, fun _ member => by cases member⟩
  · exact List.cons_ne_nil _ _

end Text
