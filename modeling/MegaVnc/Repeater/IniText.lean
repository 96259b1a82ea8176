import Mathlib.Data.List.Nodup
import MegaVnc.Repeater.ReadIni

/-! # Writing an ini file

Each setting of the repeater can be written to an ini file: the file made of its
sections is read back to the settings it was made from.
-/

namespace Repeater

open Text Transition

/-! ### Files of sections -/

/-- The settings of a section, each a name and a value. -/
structure IniSection where
  name : List Char
  entries : List (List Char × List Char)

/-- A setting on a line of its own. -/
def settingLine (entry : List Char × List Char) : IniLine :=
  .plain [] entry.1 [' '] [' '] entry.2 [] []

/-- The line of a section, and those of its settings. -/
def IniSection.lines (part : IniSection) : List IniLine :=
  .header [] part.name [] :: part.entries.map settingLine

/-- What a section sets, its own name before its settings. -/
def IniSection.changes (part : IniSection) : List Change :=
  .set ((strlwc part.name).take (2 * asciiLineSz)) none ::
    part.entries.map fun entry =>
      .set (longKey (strlwc part.name) (strlwc entry.1)) (some entry.2)

/-- The lines of settings change their keys in the section. -/
theorem changesOf_entries (sec : List Char) (entries : List (List Char × List Char))
    (rest : List Statement) :
    changesOf sec ((entries.map settingLine).map IniLine.statement ++ rest) =
      (entries.map fun entry => .set (longKey sec (strlwc entry.1)) (some entry.2)) ++
        changesOf sec rest := by
  induction entries with
  | nil => rfl
  | cons entry entries ih =>
      simp only [List.map_cons, List.cons_append, settingLine, IniLine.statement, changesOf]
      exact congrArg _ ih

/-- The lines of sections make the changes of one after the other. -/
theorem changesOf_sections (sec : List Char) (parts : List IniSection) :
    changesOf sec ((parts.flatMap IniSection.lines).map IniLine.statement) =
      parts.flatMap IniSection.changes := by
  induction parts generalizing sec with
  | nil => rfl
  | cons part parts ih =>
      rw [List.flatMap_cons, List.flatMap_cons, List.map_append, IniSection.lines, List.map_cons,
        List.cons_append, IniLine.statement, changesOf, changesOf_entries, ih]
      rfl

/-- The key that a change is about. -/
def Change.key : Change → List Char
  | .set key _ => key
  | .unset key => key

/-- Changes of other keys leave a key. -/
theorem content_of_other {changes : List Change} {key : List Char} {content : Content}
    (other : ∀ change ∈ changes, change.key ≠ key) :
    run Content.change content changes key = content key := by
  induction changes generalizing content with
  | nil => rfl
  | cons change rest ih =>
      rw [run_cons, ih fun change member => other change (List.mem_cons_of_mem _ member)]
      have different := other change List.mem_cons_self
      cases change with
      | set name value => exact Function.update_of_ne (Ne.symm different) _ _
      | unset name => exact Function.update_of_ne (Ne.symm different) _ _

/-- What is set once is kept. -/
theorem content_of_nodup {changes : List Change} {key : List Char} {val : Option (List Char)}
    (distinct : (changes.map Change.key).Nodup) (member : Change.set key val ∈ changes)
    (start : Content) : run Content.change start changes key = some val := by
  obtain ⟨before, after, rfl⟩ := List.append_of_mem member
  rw [List.map_append, List.map_cons] at distinct
  have later := (List.nodup_cons.mp (List.nodup_append.mp distinct).2.1).1
  rw [run_append, run_cons, content_of_other]
  · exact Function.update_self _ _ _
  · exact fun change inside same => later (List.mem_map.mpr ⟨change, inside, same⟩)

/-- The text of a file of sections. -/
def textOfSections (parts : List IniSection) : List Char :=
  textOf (parts.flatMap IniSection.lines)

/-- What a name, a section's or a setting's, is made of in a file. -/
def Plain (text : List Char) : Prop :=
  '\n' ∉ text ∧ '\x00' ∉ text

/-- The names and values of a section have the characters they may have, and are short
enough. -/
structure IniSection.Legal (part : IniSection) : Prop where
  named : part.name ≠ [] ∧ ']' ∉ part.name ∧ Plain part.name ∧ part.name.length < 500
  entries : ∀ entry ∈ part.entries, IsKey entry.1 ∧ IsPlain entry.2 ∧ Plain entry.1 ∧
    Plain entry.2 ∧ entry.1.length + entry.2.length < 500

/-- The lines of a legal section are legal. -/
theorem IniSection.Legal.lines {part : IniSection} (legal : part.Legal) :
    ∀ line ∈ part.lines, line.Legal := by
  intro line member
  rcases List.mem_cons.mp member with rfl | inside
  · obtain ⟨filled, clean, ⟨oneLine, noZero⟩, short⟩ := legal.named
    have text : (IniLine.header [] part.name []).text = '[' :: (part.name ++ [']']) := rfl
    refine ⟨⟨fun _ none => absurd none List.not_mem_nil, filled, clean⟩, ?_, ?_, ?_⟩
    · rw [text]
      simp [oneLine]
    · rw [text]
      simp [noZero]
    · rw [text, List.length_cons, List.length_append, List.length_singleton, asciiLineSz]
      omega
  · obtain ⟨entry, present, rfl⟩ := List.mem_map.mp inside
    obtain ⟨isKey, isPlain, ⟨keyLine, keyZero⟩, ⟨valLine, valZero⟩, short⟩ :=
      legal.entries entry present
    have text : (settingLine entry).text = entry.1 ++ [' '] ++ '=' :: (' ' :: entry.2) := by
      simp [settingLine, IniLine.text]
    have blank : Blanks [' '] := by
      intro char member
      rw [List.mem_singleton.mp member]
      decide
    have none : Blanks [] := fun _ inside => absurd inside List.not_mem_nil
    refine ⟨⟨⟨none, blank, blank, none⟩, isKey, isPlain, fun _ inside => ?_⟩, ?_, ?_, ?_⟩
    · cases inside
    · rw [text]
      simp [keyLine, valLine]
    · rw [text]
      simp [keyZero, valZero]
    · rw [text]
      simp only [List.length_append, List.length_cons, List.length_nil, asciiLineSz]
      omega

variable {parts : List IniSection} {part : IniSection} {entry : List Char × List Char}

/-- Sections have different names, without colons, and each section different settings. -/
structure Distinct (parts : List IniSection) : Prop where
  names : (parts.map fun part => strlwc part.name).Nodup
  noColon : ∀ part ∈ parts, ':' ∉ strlwc part.name
  settings : ∀ part ∈ parts, (part.entries.map fun entry => strlwc entry.1).Nodup

theorem length_strlwc_le (text : List Char) : (strlwc text).length ≤ text.length := by
  rw [strlwc, List.length_map]
  exact List.length_take_le' _ _

/-- Short names are not cut. -/
theorem longKey_eq {sec key : List Char} (secShort : sec.length < 1000)
    (keyShort : key.length < 1000) : longKey sec key = sec ++ ':' :: key := by
  refine List.take_of_length_le ?_
  rw [List.length_append, List.length_cons, asciiLineSz]
  omega

/-- The section of a key is what stands before the colon. -/
theorem takeWhile_colon {sec key : List Char} (clean : ':' ∉ sec) :
    (sec ++ ':' :: key).takeWhile (· ≠ ':') = sec := by
  have passed : ∀ char ∈ sec, decide (char ≠ ':') = true := fun char member =>
    decide_eq_true fun same => clean (same ▸ member)
  rw [List.takeWhile_append_of_pos passed, List.takeWhile_cons_of_neg (by simp), List.append_nil]

namespace IniSection.Legal

/-- The name of a section is not cut. -/
theorem name_eq (legal : part.Legal) :
    (strlwc part.name).take (2 * asciiLineSz) = strlwc part.name := by
  have short := length_strlwc_le part.name
  have named := legal.named.2.2.2
  refine List.take_of_length_le ?_
  rw [asciiLineSz]
  omega

/-- Nor is the key of one of its settings. -/
theorem longKey_eq (legal : part.Legal) (present : entry ∈ part.entries) :
    longKey (strlwc part.name) (strlwc entry.1) = strlwc part.name ++ ':' :: strlwc entry.1 := by
  have short := length_strlwc_le part.name
  have named := legal.named.2.2.2
  have keyShort := length_strlwc_le entry.1
  have both := (legal.entries entry present).2.2.2.2
  exact Repeater.longKey_eq (by omega) (by omega)

/-- The keys of a section start with its name. -/
theorem takeWhile_key (legal : part.Legal) (noColon : ':' ∉ strlwc part.name) {key : List Char}
    (member : key ∈ part.changes.map Change.key) :
    key.takeWhile (· ≠ ':') = strlwc part.name := by
  rw [IniSection.changes, List.map_cons, List.map_map] at member
  rcases List.mem_cons.mp member with rfl | inside
  · rw [Change.key, legal.name_eq]
    exact List.takeWhile_eq_self_iff.mpr fun char member =>
      decide_eq_true fun same => noColon (same ▸ member)
  · obtain ⟨entry, present, rfl⟩ := List.mem_map.mp inside
    rw [Function.comp_apply, Change.key, legal.longKey_eq present]
    exact takeWhile_colon noColon

/-- Different settings are stored under different keys. -/
theorem nodup_keys (legal : part.Legal) (noColon : ':' ∉ strlwc part.name)
    (settings : (part.entries.map fun entry => strlwc entry.1).Nodup) :
    (part.changes.map Change.key).Nodup := by
  rw [IniSection.changes, List.map_cons, List.map_map]
  refine List.nodup_cons.mpr ⟨fun member => ?_, ?_⟩
  · obtain ⟨entry, present, same⟩ := List.mem_map.mp member
    rw [Function.comp_apply, Change.key, Change.key, legal.longKey_eq present,
      legal.name_eq] at same
    exact noColon (same ▸ List.mem_append_right _ List.mem_cons_self)
  · have distinct := List.pairwise_map.mp settings
    refine List.pairwise_map.mpr (List.Pairwise.imp_of_mem ?_ distinct)
    intro first second here there different same
    rw [Function.comp_apply, Function.comp_apply, Change.key, Change.key,
      legal.longKey_eq here, legal.longKey_eq there] at same
    exact different (List.cons.inj (List.append_cancel_left same)).2

end IniSection.Legal

/-- A file of sections says of each setting what was written. -/
theorem content_sections (legal : ∀ part ∈ parts, part.Legal) (distinct : Distinct parts)
    (member : part ∈ parts) (present : entry ∈ part.entries) :
    contentOf (statementsOf (textOfSections parts))
      (longKey (strlwc part.name) (strlwc entry.1)) = some (some entry.2) := by
  have lines : ∀ line ∈ parts.flatMap IniSection.lines, line.Legal := by
    intro line inside
    obtain ⟨part, listed, held⟩ := List.mem_flatMap.mp inside
    exact (legal part listed).lines line held
  have keys : ((parts.flatMap IniSection.changes).map Change.key).Nodup := by
    rw [List.map_flatMap, List.nodup_flatMap]
    refine ⟨fun part listed => (legal part listed).nodup_keys (distinct.noColon part listed)
      (distinct.settings part listed), ?_⟩
    refine List.Pairwise.imp_of_mem ?_ (List.pairwise_map.mp distinct.names)
    intro first second here there different key inFirst inSecond
    have one := (legal first here).takeWhile_key (distinct.noColon first here) inFirst
    have two := (legal second there).takeWhile_key (distinct.noColon second there) inSecond
    exact different (one.symm.trans two)
  rw [textOfSections, statementsOf_textOf lines, contentOf, changesOf_sections]
  refine content_of_nodup keys (List.mem_flatMap.mpr ⟨part, member, ?_⟩) _
  exact List.mem_cons_of_mem _ (List.mem_map.mpr ⟨entry, present, rfl⟩)

/-! ### Words -/

section Word

variable {word : List Char} {char : Char}

theorem plain_of_word (isWord : IsWord word) : Plain word :=
  ⟨fun member => ne_of_wordChar (isWord.2 _ member) (by decide) rfl,
    fun member => ne_of_wordChar (isWord.2 _ member) (by decide) rfl⟩

theorem wordChar_of_digit (digit : char.isDigit = true) : wordChar char = true := by
  simp only [wordChar, Char.isAlphanum, digit, Bool.or_true, Bool.true_or]

/-- Numbers are made of such characters. -/
theorem wordChar_of_decimal {value : Int} (member : char ∈ decimal value) :
    wordChar char = true := by
  cases value with
  | ofNat magnitude =>
      exact wordChar_of_digit (Nat.isDigit_of_mem_toDigits (by decide) (by decide) member)
  | negSucc magnitude =>
      rcases List.mem_cons.mp member with rfl | digit
      · decide
      · exact wordChar_of_digit (Nat.isDigit_of_mem_toDigits (by decide) (by decide) digit)

/-- Addresses are made of characters of words. -/
theorem wordChar_of_inetNtoa {address : AddrParts} (member : char ∈ inetNtoa address) :
    wordChar char = true := by
  simp only [inetNtoa, List.mem_append, List.mem_cons] at member
  rcases member with a | rfl | b | rfl | c | rfl | d
  · exact wordChar_of_decimal a
  · decide
  · exact wordChar_of_decimal b
  · decide
  · exact wordChar_of_decimal c
  · decide
  · exact wordChar_of_decimal d

end Word

/-- A value that a file can hold. -/
structure IsValue (val : List Char) : Prop where
  isPlain : IsPlain val
  plain : Plain val
  short : val.length < myTmpBufLen

/-! ### The settings as a file -/

namespace Ini

variable (ini : Ini)

/-- A truth value as it is written. -/
def trueOrFalse (value : Bool) : List Char :=
  if value then "true".toList else "false".toList

/-- The settings of a list, under numbered names. -/
def listed {α : Type} (name : String) (size : Nat) (values : List α) (dflt : α)
    (text : α → List Char) : List (List Char × List Char) :=
  (List.range size).map fun ii => (numbered name ii, text (values.getD ii dflt))

/-- The section about the repeater as a whole. -/
def general : IniSection where
  name := "general".toList
  entries :=
    [("viewerport".toList, decimal ini.viewerPort.toInt),
      ("serverport".toList, decimal ini.serverPort.toInt),
      ("ownipaddress".toList, ini.ownIpAddress),
      ("maxsessions".toList, decimal ini.maxSessions.toInt),
      ("runasuser".toList, ini.runAsUser),
      ("allowedmodes".toList, decimal ini.allowedModes.toInt),
      ("logginglevel".toList, decimal ini.loggingLevel.toInt)]

/-- The section about Mode 1, with the entries of its lists that are not the default. -/
def mode1 : IniSection where
  name := "mode1".toList
  entries :=
    [("allowedmode1serverport".toList, decimal ini.allowedMode1ServerPort.toInt),
      ("requirelistedserver".toList, decimal ini.requireListedServer.toInt)] ++
    listed "srvListAllow" serversListSize ini.srvListAllow noServer inetNtoa ++
    listed "srvListDeny" serversListSize ini.srvListDeny noServer inetNtoa

/-- The section about Mode 2, with the ids that are not the default. -/
def mode2 : IniSection where
  name := "mode2".toList
  entries :=
    ("requirelistedid".toList, decimal ini.requireListedId.toInt) ::
      listed "idlist" idListSize ini.idList 0 fun id => decimal id.toInt

/-- The section about the listener. -/
def eventInterface : IniSection where
  name := "eventinterface".toList
  entries :=
    [("useeventinterface".toList, trueOrFalse ini.useEventInterface),
      ("eventlistenerhost".toList, ini.eventListenerHost),
      ("eventlistenerport".toList, decimal ini.eventListenerPort.toInt),
      ("usehttp".toList, trueOrFalse ini.useHttpForEventListener)]

/-- The four sections of a file. -/
def sections : List IniSection :=
  [ini.general, ini.mode1, ini.mode2, ini.eventInterface]

/-- Settings that a file can hold: numbers within their limits, texts that are plain
values, lists of the sizes of the arrays. Without its switch a list is not read. -/
structure Legal : Prop where
  sessions : limitSessions ini.maxSessions = ini.maxSessions
  level : limitLevel ini.loggingLevel = ini.loggingLevel
  texts : ∀ text ∈ [ini.ownIpAddress, ini.runAsUser, ini.eventListenerHost], IsValue text
  sizes : ini.srvListAllow.length = serversListSize ∧ ini.srvListDeny.length = serversListSize ∧
    ini.idList.length = idListSize
  servers : ini.requireListedServer = 1 ∨
    ini.srvListAllow = initial.srvListAllow ∧ ini.srvListDeny = initial.srvListDeny
  ids : ini.requireListedId = 1 ∨ ini.idList = initial.idList

end Ini

/-! ### Values -/

/-- `atoi` reads back what `%d` has printed. -/
theorem atoi_decimal (value : Int32) : atoi (decimal value.toInt) = value := by
  have low := value.le_toInt
  have high := value.toInt_lt
  have read : strtol (decimal value.toInt) = value.toInt := by
    cases number : value.toInt with
    | ofNat magnitude =>
        have small : (magnitude : Int) < 2 ^ 31 := by
          rw [number] at high
          exact high
        exact strtol_toDigits (by omega)
    | negSucc magnitude =>
        have digits : (Nat.toDigits 10 (magnitude + 1)).takeWhile Char.isDigit =
            Nat.toDigits 10 (magnitude + 1) :=
          List.takeWhile_eq_self_iff.mpr fun char member =>
            Nat.isDigit_of_mem_toDigits (by decide) (by decide) member
        change max (-2 ^ 63) (-(Nat.ofDigitChars 10
          ((Nat.toDigits 10 (magnitude + 1)).takeWhile Char.isDigit) 0 : Int)) = _
        rw [digits, Nat.ofDigitChars_ten_toDigits]
        omega
  rw [atoi, read, Int32.ofInt_toInt]

theorem length_decimal_int32 (value : Int32) : (decimal value.toInt).length ≤ 11 := by
  have low := value.le_toInt
  have high := value.toInt_lt
  exact length_decimal_le (by decide) (by omega)

/-- An address has at most fifteen. -/
theorem length_inetNtoa (address : AddrParts) : (inetNtoa address).length ≤ 15 := by
  have a := length_decimal_byte address.a
  have b := length_decimal_byte address.b
  have c := length_decimal_byte address.c
  have d := length_decimal_byte address.d
  simp only [inetNtoa, List.length_append, List.length_cons]
  omega

theorem booleanOf_trueOrFalse (value : Bool) :
    booleanOf false (Ini.trueOrFalse value) = value := by
  cases value <;> decide

theorem isWord_decimal (value : Int) : IsWord (decimal value) :=
  ⟨decimal_ne_nil value, fun _ => wordChar_of_decimal⟩

theorem isWord_inetNtoa (address : AddrParts) : IsWord (inetNtoa address) :=
  ⟨fun empty => decimal_ne_nil _ (List.append_eq_nil_iff.mp empty).1,
    fun _ => wordChar_of_inetNtoa⟩

theorem isValue_of_word {word : List Char} (isWord : IsWord word)
    (short : word.length < myTmpBufLen) : IsValue word :=
  ⟨isPlain_of_word isWord, plain_of_word isWord, short⟩

theorem isValue_decimal (value : Int32) : IsValue (decimal value.toInt) :=
  isValue_of_word (isWord_decimal _)
    (Nat.lt_of_le_of_lt (length_decimal_int32 value) (by decide))

theorem isValue_inetNtoa (address : AddrParts) : IsValue (inetNtoa address) :=
  isValue_of_word (isWord_inetNtoa address)
    (Nat.lt_of_le_of_lt (length_inetNtoa address) (by decide))

theorem isValue_trueOrFalse (value : Bool) : IsValue (Ini.trueOrFalse value) := by
  refine isValue_of_word ?_ ?_ <;> cases value <;> decide

/-! ### Reading back -/

/-- Names of settings are words, and short. -/
def IsName (name : List Char) : Prop :=
  IsWord name ∧ name.length < 100

instance (name : List Char) : Decidable (IsName name) :=
  inferInstanceAs (Decidable (IsWord name ∧ name.length < 100))

/-- The names of lists with their numbers are names. -/
theorem isName_numbered {name : String} {ii size : Nat}
    (isName : IsWord name.toList ∧ name.toList.length < 80) (inside : ii ∈ List.range size)
    (few : size ≤ 100) : IsName (numbered name ii) := by
  obtain ⟨⟨filled, all⟩, short⟩ := isName
  have below := List.mem_range.mp inside
  have digits : (decimal (ii : Int)).length ≤ 3 :=
    length_decimal_le_of_nonneg (by decide) (by omega) (by omega)
  refine ⟨⟨fun empty => filled (List.append_eq_nil_iff.mp empty).1, fun char member => ?_⟩, ?_⟩
  · rcases List.mem_append.mp member with inside | number
    · exact all char inside
    · exact wordChar_of_decimal number
  · rw [numbered, List.length_append]
    omega

/-- A section of words and values. -/
theorem legal_of_names {part : IniSection} (isName : IsName part.name)
    (entries : ∀ entry ∈ part.entries, IsName entry.1 ∧ IsValue entry.2) : part.Legal where
  named := by
    obtain ⟨isWord, short⟩ := isName
    exact ⟨isWord.1, fun member => ne_of_wordChar (isWord.2 _ member) (by decide) rfl,
      plain_of_word isWord, by omega⟩
  entries entry present := by
    obtain ⟨⟨isWord, short⟩, isValue⟩ := entries entry present
    have fits := isValue.short
    rw [myTmpBufLen] at fits
    exact ⟨isKey_of_word isWord, isValue.isPlain, plain_of_word isWord, isValue.plain, by omega⟩

/-- An entry of a list has the name with its number. -/
theorem mem_listed {α : Type} {name : String} {size : Nat} {values : List α} {dflt : α}
    {text : α → List Char} {entry : List Char × List Char}
    (member : entry ∈ Ini.listed name size values dflt text) :
    ∃ ii ∈ List.range size, entry = (numbered name ii, text (values.getD ii dflt)) := by
  obtain ⟨ii, inside, rfl⟩ := List.mem_map.mp member
  exact ⟨ii, inside, rfl⟩

/-- Entries made of names and values are proper. -/
theorem names_values {entries : List (List Char × List Char)} {names vals : List (List Char)}
    (made : entries = names.zip vals) (isName : ∀ name ∈ names, IsName name)
    (isValue : ∀ val ∈ vals, IsValue val) :
    ∀ entry ∈ entries, IsName entry.1 ∧ IsValue entry.2 := by
  subst made
  intro entry member
  obtain ⟨named, valued⟩ := List.of_mem_zip member
  exact ⟨isName _ named, isValue _ valued⟩

/-- The section about the repeater as a whole is legal. -/
theorem legal_general {ini : Ini} (legal : ini.Legal) : ini.general.Legal := by
  have names : ∀ name ∈ ["viewerport".toList, "serverport".toList, "ownipaddress".toList,
      "maxsessions".toList, "runasuser".toList, "allowedmodes".toList, "logginglevel".toList],
      IsName name := by decide
  have values : ∀ val ∈ [decimal ini.viewerPort.toInt, decimal ini.serverPort.toInt,
      ini.ownIpAddress, decimal ini.maxSessions.toInt, ini.runAsUser,
      decimal ini.allowedModes.toInt, decimal ini.loggingLevel.toInt], IsValue val := by
    have texts := legal.texts
    simp only [List.forall_mem_cons, isValue_decimal] at texts ⊢
    tauto
  exact legal_of_names (by decide : IsName "general".toList)
    (names_values rfl names values)

/-- The section about the listener is legal. -/
theorem legal_eventInterface {ini : Ini} (legal : ini.Legal) : ini.eventInterface.Legal := by
  have names : ∀ name ∈ ["useeventinterface".toList, "eventlistenerhost".toList,
      "eventlistenerport".toList, "usehttp".toList], IsName name := by decide
  have values : ∀ val ∈ [Ini.trueOrFalse ini.useEventInterface, ini.eventListenerHost,
      decimal ini.eventListenerPort.toInt, Ini.trueOrFalse ini.useHttpForEventListener],
      IsValue val := by
    have texts := legal.texts
    simp only [List.forall_mem_cons, isValue_decimal, isValue_trueOrFalse] at texts ⊢
    tauto
  exact legal_of_names (by decide : IsName "eventinterface".toList)
    (names_values rfl names values)

/-- The section about Mode 1 is legal, whatever its lists are. -/
theorem legal_mode1 (ini : Ini) : ini.mode1.Legal := by
  refine legal_of_names (by decide : IsName "mode1".toList) fun entry member => ?_
  simp only [Ini.mode1, List.mem_append] at member
  rcases member with (scalar | allow) | deny
  · simp only [List.mem_cons, List.not_mem_nil, or_false] at scalar
    rcases scalar with rfl | rfl
    · exact ⟨(by decide : IsName "allowedmode1serverport".toList), isValue_decimal _⟩
    · exact ⟨(by decide : IsName "requirelistedserver".toList), isValue_decimal _⟩
  · obtain ⟨ii, inside, rfl⟩ := mem_listed allow
    exact ⟨isName_numbered (by decide) inside (by decide), isValue_inetNtoa _⟩
  · obtain ⟨ii, inside, rfl⟩ := mem_listed deny
    exact ⟨isName_numbered (by decide) inside (by decide), isValue_inetNtoa _⟩

/-- The section about Mode 2 is legal. -/
theorem legal_mode2 (ini : Ini) : ini.mode2.Legal := by
  refine legal_of_names (by decide : IsName "mode2".toList) fun entry member => ?_
  rcases List.mem_cons.mp member with rfl | listed
  · exact ⟨(by decide : IsName "requirelistedid".toList), isValue_decimal _⟩
  · obtain ⟨ii, inside, rfl⟩ := mem_listed listed
    exact ⟨isName_numbered (by decide) inside (by decide), isValue_decimal _⟩

theorem legal_sections {ini : Ini} (legal : ini.Legal) : ∀ part ∈ ini.sections, part.Legal := by
  simp only [Ini.sections, List.forall_mem_cons]
  exact ⟨legal_general legal, legal_mode1 ini, legal_mode2 ini, legal_eventInterface legal,
    List.forall_mem_nil _⟩

/-- Lower case changes no number. -/
theorem strlwc_numbered {name : String} {ii size : Nat} (short : name.toList.length < 80)
    (inside : ii ∈ List.range size) (few : size ≤ 100) :
    strlwc (numbered name ii) = name.toList.map Char.toLower ++ decimal ii := by
  have below := List.mem_range.mp inside
  have digits : (decimal (ii : Int)).length ≤ 3 :=
    length_decimal_le_of_nonneg (by decide) (by omega) (by omega)
  have lower : (decimal (ii : Int)).map Char.toLower = decimal ii := by
    refine (List.map_congr_left fun char member => ?_).trans (List.map_id _)
    have digit : char.isDigit = true :=
      Nat.isDigit_of_mem_toDigits (by decide) (by decide) member
    rw [Char.isDigit, Bool.and_eq_true, decide_eq_true_eq, decide_eq_true_eq] at digit
    refine dif_neg fun upper => ?_
    exact absurd (UInt32.le_trans upper.1 digit.2) (by decide)
  rw [strlwc, List.take_of_length_le, numbered, List.map_append, lower]
  rw [numbered, List.length_append, asciiLineSz]
  omega

/-- The entries of a list have different names. -/
theorem nodup_listed {α : Type} {name : String} {size : Nat} {values : List α} {dflt : α}
    {text : α → List Char} (short : name.toList.length < 80) (few : size ≤ 100) :
    ((Ini.listed name size values dflt text).map fun entry => strlwc entry.1).Nodup := by
  rw [Ini.listed, List.map_map]
  refine List.Nodup.map_on (fun first here second there same => ?_) List.nodup_range
  rw [Function.comp_apply, Function.comp_apply, strlwc_numbered short here few,
    strlwc_numbered short there few] at same
  have number := congrArg parseDecimal (List.append_cancel_left same)
  rw [parseDecimal_decimal, parseDecimal_decimal, Option.some.injEq] at number
  exact Int.ofNat_inj.mp number

/-- The names of a list start alike. -/
theorem take_listed {α : Type} {name : String} {size count : Nat} {values : List α} {dflt : α}
    {text : α → List Char} {key : List Char} (short : name.toList.length < 80) (few : size ≤ 100)
    (enough : count ≤ name.toList.length)
    (member : key ∈ (Ini.listed name size values dflt text).map fun entry => strlwc entry.1) :
    key.take count = (name.toList.map Char.toLower).take count := by
  obtain ⟨entry, present, rfl⟩ := List.mem_map.mp member
  obtain ⟨ii, inside, rfl⟩ := mem_listed present
  rw [strlwc_numbered short inside few, List.take_append_of_le_length]
  rw [List.length_map]
  exact enough

/-- The settings of Mode 1 have different names. -/
theorem distinct_mode1 (ini : Ini) :
    (ini.mode1.entries.map fun entry => strlwc entry.1).Nodup := by
  rw [Ini.mode1, List.map_append, List.map_append]
  refine List.nodup_append.mpr ⟨List.nodup_append.mpr ⟨?_, nodup_listed (by decide) (by decide),
    fun scalar here allow there same => ?_⟩, nodup_listed (by decide) (by decide),
    fun other here deny there same => ?_⟩
  · exact (by decide : ["allowedmode1serverport".toList, "requirelistedserver".toList].Nodup)
  · have starts : allow.take 8 = _ := take_listed (by decide) (by decide) (by decide) there
    have clash : ∀ name ∈ ["allowedmode1serverport".toList, "requirelistedserver".toList],
        name.take 8 ≠ ("srvListAllow".toList.map Char.toLower).take 8 := by decide
    exact clash scalar here (same ▸ starts)
  · have starts : deny.take 8 = _ := take_listed (by decide) (by decide) (by decide) there
    rcases List.mem_append.mp here with scalar | allow
    · have clash : ∀ name ∈ ["allowedmode1serverport".toList, "requirelistedserver".toList],
          name.take 8 ≠ ("srvListDeny".toList.map Char.toLower).take 8 := by decide
      exact clash other scalar (same ▸ starts)
    · have begins : other.take 8 = _ := take_listed (by decide) (by decide) (by decide) allow
      rw [same, starts] at begins
      exact absurd begins (by decide)

/-- Sections and settings have different names. -/
theorem distinct_sections (ini : Ini) : Distinct ini.sections where
  names := (by decide : ["general".toList, "mode1".toList, "mode2".toList,
    "eventinterface".toList].Nodup)
  noColon part member := by
    have clean : ∀ name ∈ ["general".toList, "mode1".toList, "mode2".toList,
        "eventinterface".toList], ':' ∉ strlwc name := by decide
    exact clean part.name (List.mem_map_of_mem member)
  settings part member := by
    simp only [Ini.sections, List.mem_cons, List.not_mem_nil, or_false] at member
    rcases member with rfl | rfl | rfl | rfl
    · exact (by decide : ["viewerport".toList, "serverport".toList, "ownipaddress".toList,
        "maxsessions".toList, "runasuser".toList, "allowedmodes".toList,
        "logginglevel".toList].Nodup)
    · exact distinct_mode1 ini
    · refine List.nodup_cons.mpr ⟨fun there => ?_, nodup_listed (by decide) (by decide)⟩
      have starts : (strlwc "requirelistedid".toList).take 6 = _ :=
        take_listed (by decide) (by decide) (by decide) there
      exact absurd starts (by decide)
    · exact (by decide : ["useeventinterface".toList, "eventlistenerhost".toList,
        "eventlistenerport".toList, "usehttp".toList].Nodup)

section RoundTrip

variable {ini : Ini} {name : List Char}

/-- No section that is written has a colon in its name. -/
theorem noColon_sections (legal : ini.Legal) :
    ∀ sec, .sectionName sec ∈ statementsOf (textOfSections ini.sections) → ':' ∉ sec := by
  have lines : ∀ line ∈ ini.sections.flatMap IniSection.lines, line.Legal := by
    intro line inside
    obtain ⟨part, listed, held⟩ := List.mem_flatMap.mp inside
    exact (legal_sections legal part listed).lines line held
  intro sec member
  rw [textOfSections, statementsOf_textOf lines] at member
  obtain ⟨line, inside, said⟩ := List.mem_map.mp member
  obtain ⟨part, listed, held⟩ := List.mem_flatMap.mp inside
  rcases List.mem_cons.mp held with rfl | setting
  · cases said
    exact (distinct_sections ini).noColon part listed
  · obtain ⟨entry, -, rfl⟩ := List.mem_map.mp setting
    cases said

/-- What the file of the settings says. -/
def Ini.written (ini : Ini) : Content :=
  contentOf (statementsOf (textOfSections ini.sections))

variable {part : IniSection} {key : List Char} {index : Nat}

/-- The name of a setting among all settings. -/
theorem strlwc_colon (legal : part.Legal) {val : List Char} (present : (key, val) ∈ part.entries)
    (named : name = part.name ++ ':' :: key) :
    strlwc name = longKey (strlwc part.name) (strlwc key) := by
  have one := legal.named.2.2.2
  have two : key.length + val.length < 500 := (legal.entries _ present).2.2.2.2
  have short : (part.name ++ ':' :: key).length ≤ asciiLineSz := by
    rw [List.length_append, List.length_cons, asciiLineSz]
    omega
  have lower (text : List Char) (fits : text.length ≤ asciiLineSz) :
      strlwc text = text.map Char.toLower := by
    rw [strlwc, List.take_of_length_le fits]
  have whole : strlwc part.name ++ ':' :: strlwc key =
      (part.name ++ ':' :: key).map Char.toLower := by
    rw [lower part.name (by rw [asciiLineSz]; omega), lower key (by rw [asciiLineSz]; omega),
      List.map_append, List.map_cons]
    rfl
  rw [named, legal.longKey_eq present, whole, lower _ short]

/-- A setting has the value that was written. -/
theorem said_written {α : Type} {val : List Char} {dflt : α} {read : List Char → α}
    (legal : ini.Legal) (member : part ∈ ini.sections) (present : (key, val) ∈ part.entries)
    (named : name = part.name ++ ':' :: key) :
    saidOf ini.written name dflt read = read val := by
  unfold saidOf Ini.written
  rw [strlwc_colon (legal_sections legal part member) present named,
    content_sections (legal_sections legal) (distinct_sections ini) member present]

/-- A number is read back from its section. -/
theorem number_written {dflt value : Int32} (index : Nat) (legal : ini.Legal)
    (member : part ∈ ini.sections)
    (present : part.entries[index]? = some (key, decimal value.toInt))
    (named : name = part.name ++ ':' :: key) : saidOf ini.written name dflt atoi = value :=
  (said_written legal member (List.mem_of_getElem? present) named).trans (atoi_decimal value)

/-- A truth value that was written is read back. -/
theorem flag_written {value : Bool} (index : Nat) (legal : ini.Legal)
    (member : part ∈ ini.sections)
    (present : part.entries[index]? = some (key, Ini.trueOrFalse value))
    (named : name = part.name ++ ':' :: key) :
    saidOf ini.written name false (booleanOf false) = value :=
  (said_written legal member (List.mem_of_getElem? present) named).trans
    (booleanOf_trueOrFalse value)

/-- A text that was written is read back. -/
theorem text_written {value dflt : List Char} (index : Nat) (legal : ini.Legal)
    (member : part ∈ ini.sections) (present : part.entries[index]? = some (key, value))
    (named : name = part.name ++ ':' :: key)
    (held : value ∈ [ini.ownIpAddress, ini.runAsUser, ini.eventListenerHost]) :
    textSaid ini.written name dflt = value :=
  (said_written legal member (List.mem_of_getElem? present) named).trans
    (List.take_of_length_le (Nat.le_sub_one_of_lt (legal.texts value held).short))

/-- A list is what its positions hold. -/
theorem map_getD_range {α : Type} {values : List α} {size : Nat} (length : values.length = size)
    (dflt : α) : ((List.range size).map fun ii => values.getD ii dflt) = values := by
  subst length
  refine List.ext_getElem? fun index => ?_
  rw [List.getElem?_map]
  by_cases inside : index < values.length
  · rw [List.getElem?_range inside, Option.map_some, List.getD_eq_getElem?_getD,
      List.getElem?_eq_getElem inside]
    rfl
  · rw [List.getElem?_eq_none (by rwa [List.length_range, ← not_lt]),
      List.getElem?_eq_none (not_lt.mp inside)]
    rfl

/-- A list has the values that were written. -/
theorem listed_written {α : Type} {short long : String} {size : Nat} {values : List α}
    {dflt other : α} {text : α → List Char} {read : List Char → α} (legal : ini.Legal)
    (member : part ∈ ini.sections)
    (present : ∀ entry ∈ Ini.listed short size values dflt text, entry ∈ part.entries)
    (named : long.toList = part.name ++ ':' :: short.toList)
    (length : values.length = size) (reads : ∀ value, read (text value) = value) :
    ((List.range size).map fun ii => saidOf ini.written (numbered long ii) other read) =
      values := by
  refine Eq.trans (List.map_congr_left fun ii inside => ?_) (map_getD_range length dflt)
  have entry : (numbered short ii, text (values.getD ii dflt)) ∈ part.entries :=
    present _ (List.mem_map.mpr ⟨ii, inside, rfl⟩)
  have name : numbered long ii = part.name ++ ':' :: numbered short ii := by
    rw [numbered, numbered, named, List.append_assoc, List.cons_append]
  rw [said_written legal member entry name, reads]

/-- A list of servers is read back. -/
theorem servers_written {short long : String} {values : List AddrParts} (legal : ini.Legal)
    (member : part ∈ ini.sections)
    (present : ∀ entry ∈ Ini.listed short serversListSize values noServer inetNtoa,
      entry ∈ part.entries)
    (named : long.toList = part.name ++ ':' :: short.toList)
    (length : values.length = serversListSize) : serversSaid ini.written long = values := by
  refine Eq.trans (List.map_congr_left fun ii inside => ?_) (map_getD_range length noServer)
  have entry : (numbered short ii, inetNtoa (values.getD ii noServer)) ∈ part.entries :=
    present _ (List.mem_map.mpr ⟨ii, inside, rfl⟩)
  have name : numbered long ii = part.name ++ ':' :: numbered short ii := by
    rw [numbered, numbered, named, List.append_assoc, List.cons_append]
  have whole : (inetNtoa (values.getD ii noServer)).take (myTmpBufLen - 1) =
      inetNtoa (values.getD ii noServer) :=
    List.take_of_length_le (Nat.le_sub_one_of_lt (isValue_inetNtoa _).short)
  rw [textSaid, said_written legal member entry name, whole, getAddrPartsFromString_inetNtoa]

/-- The section about the repeater as a whole is read back. -/
theorem general_written (legal : ini.Legal) :
    saidOf ini.written "general:viewerport".toList 5900 atoi = ini.viewerPort ∧
    saidOf ini.written "general:serverport".toList 5500 atoi = ini.serverPort ∧
    textSaid ini.written "general:ownipaddress".toList "0.0.0.0".toList = ini.ownIpAddress ∧
    saidOf ini.written "general:maxsessions".toList maxSessionsDefault atoi =
      ini.maxSessions ∧
    textSaid ini.written "general:runasuser".toList "uvncrep".toList = ini.runAsUser ∧
    saidOf ini.written "general:allowedmodes".toList (connMode1 ||| connMode2) atoi =
      ini.allowedModes ∧
    saidOf ini.written "general:logginglevel".toList defaultLoggingLevel atoi =
      ini.loggingLevel := by
  have member : ini.general ∈ ini.sections := List.mem_cons_self
  exact ⟨number_written 0 legal member rfl rfl, number_written 1 legal member rfl rfl,
    text_written 2 legal member rfl rfl (by simp),
    number_written 3 legal member rfl rfl,
    text_written 4 legal member rfl rfl (by simp),
    number_written 5 legal member rfl rfl,
    number_written 6 legal member rfl rfl⟩

/-- The section about the listener is read back. -/
theorem eventInterface_written (legal : ini.Legal) :
    saidOf ini.written "eventinterface:useeventinterface".toList false (booleanOf false) =
      ini.useEventInterface ∧
    textSaid ini.written "eventinterface:eventlistenerhost".toList "localhost".toList =
      ini.eventListenerHost ∧
    saidOf ini.written "eventinterface:eventlistenerport".toList 2002 atoi =
      ini.eventListenerPort ∧
    saidOf ini.written "eventinterface:usehttp".toList false (booleanOf false) =
      ini.useHttpForEventListener := by
  have member : ini.eventInterface ∈ ini.sections := by simp [Ini.sections]
  exact ⟨flag_written 0 legal member rfl rfl,
    text_written 1 legal member rfl rfl (by simp),
    number_written 2 legal member rfl rfl,
    flag_written 3 legal member rfl rfl⟩

/-- The section about Mode 1 is read back. -/
theorem mode1_written (legal : ini.Legal) :
    saidOf ini.written "mode1:allowedmode1serverport".toList 0 atoi = ini.allowedMode1ServerPort ∧
    saidOf ini.written "mode1:requirelistedserver".toList 0 atoi = ini.requireListedServer ∧
    serversSaid ini.written "mode1:srvListAllow" = ini.srvListAllow ∧
    serversSaid ini.written "mode1:srvListDeny" = ini.srvListDeny := by
  have member : ini.mode1 ∈ ini.sections := List.mem_cons_of_mem _ List.mem_cons_self
  exact ⟨number_written 0 legal member rfl rfl, number_written 1 legal member rfl rfl,
    servers_written legal member
      (fun _ inside => List.mem_append_left _ (List.mem_append_right _ inside)) rfl
      legal.sizes.1,
    servers_written legal member (fun _ inside => List.mem_append_right _ inside) rfl
      legal.sizes.2.1⟩

/-- The section about Mode 2 is read back. -/
theorem mode2_written (legal : ini.Legal) :
    saidOf ini.written "mode2:requirelistedid".toList 0 atoi = ini.requireListedId ∧
    ((List.range idListSize).map fun ii =>
      saidOf ini.written (numbered "mode2:idlist" ii) 0 atoi) = ini.idList := by
  have member : ini.mode2 ∈ ini.sections :=
    List.mem_cons_of_mem _ (List.mem_cons_of_mem _ List.mem_cons_self)
  exact ⟨number_written 0 legal member rfl rfl,
    listed_written legal member (fun _ inside => List.mem_cons_of_mem _ inside) rfl
      legal.sizes.2.2 atoi_decimal⟩

/-- The file that is made from settings is read back to them. -/
theorem readIniFile_written (legal : ini.Legal) :
    readIniFile .initial (some (textOfSections ini.sections)) = .ok (true, ini) := by
  have settings : settingsOf ini.written .initial = ini := by
    obtain ⟨viewerPort, serverPort, ownIpAddress, maxSessions, runAsUser, allowedModes,
      loggingLevel⟩ := general_written legal
    obtain ⟨allowedMode1ServerPort, requireListedServer, allow, deny⟩ := mode1_written legal
    obtain ⟨requireListedId, idList⟩ := mode2_written legal
    obtain ⟨useEventInterface, host, port, useHttp⟩ := eventInterface_written legal
    have servers : (if ini.requireListedServer = 1 then ini.srvListAllow
        else Ini.initial.srvListAllow) = ini.srvListAllow ∧
        (if ini.requireListedServer = 1 then ini.srvListDeny
        else Ini.initial.srvListDeny) = ini.srvListDeny := by
      rcases legal.servers with required | ⟨allowSame, denySame⟩
      · rw [if_pos required, if_pos required]
        exact ⟨rfl, rfl⟩
      · rw [allowSame, denySame, ite_self, ite_self]
        exact ⟨rfl, rfl⟩
    have ids : (if ini.requireListedId = 1 then ini.idList else Ini.initial.idList) =
        ini.idList := by
      rcases legal.ids with required | same
      · rw [if_pos required]
      · rw [same, ite_self]
    simp only [settingsOf, viewerPort, serverPort, ownIpAddress, maxSessions, runAsUser,
      allowedModes, loggingLevel, allowedMode1ServerPort, requireListedServer, allow, deny,
      requireListedId, idList, useEventInterface, host, port, useHttp, legal.sessions,
      legal.level, servers, ids]
  rw [readIniFile_noColon _ (noColon_sections legal)]
  exact congrArg (fun ini => Except.ok (true, ini)) settings

end RoundTrip

/-- Mode 2 for two ids, with events as plain lines. -/
def twoIds : Ini :=
  { Ini.initial with
    maxSessions := 20
    allowedModes := 2
    requireListedId := 1
    idList := 1111 :: 2222 :: List.replicate 98 0
    useEventInterface := true
    eventListenerHost := "192.168.0.137".toList }

theorem readIniFile_written_twoIds :
    readIniFile .initial (some (textOfSections twoIds.sections)) = .ok (true, twoIds) := by
  refine readIniFile_written ⟨by decide, by decide, ?_, by decide, Or.inr ⟨rfl, rfl⟩, Or.inl rfl⟩
  have words : ∀ text ∈ [twoIds.ownIpAddress, twoIds.runAsUser, twoIds.eventListenerHost],
      IsWord text ∧ text.length < myTmpBufLen := by decide
  exact fun text member => isValue_of_word (words text member).1 (words text member).2

end Repeater
