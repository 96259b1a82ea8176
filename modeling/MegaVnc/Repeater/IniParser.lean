import MegaVnc.Foundation.Scan
import MegaVnc.Repeater.Dictionary
import MegaVnc.Repeater.Mode1

/-! # The parser of ini files

A file is read by `fgets`, and each line is scanned as a section, a quoted or a plain
setting. A file is made of bytes; a character below stands for one of them.
-/

namespace Repeater

open Scan Text Transition

/-- The size of the buffers for lines and keys. -/
def asciiLineSz : Nat := 1024

/-- The text in lower case, cut to the size of a line. -/
def strlwc (text : List Char) : List Char :=
  (text.take asciiLineSz).map Char.toLower

/-- The text without the blanks in front. -/
def strskp (text : List Char) : List Char :=
  text.dropWhile isspace

/-- The text without the blanks at the end, cut to the size of a line. -/
def strcrop (text : List Char) : List Char :=
  (text.take asciiLineSz).rdropWhile isspace

/-! ### Lines

The formats of `sscanf` are made of scans up to a stop. -/

/-- The format of a section, without its closing bracket. -/
def scanSection : List Char → Option (List Char)
  | '[' :: text => (scanUntil (· = ']') text).map Prod.fst
  | _ => none

/-- What the formats of settings start with: a key, an equals sign and blanks. -/
def scanKey (text : List Char) : Option (List Char × List Char) :=
  match scanUntil (· = '=') text with
  | some (key, '=' :: rest) => some (key, rest.dropWhile isspace)
  | _ => none

/-- A value up to the quotation mark that closes it, or to the end. -/
def scanQuoted (mark : Char) (text : List Char) : Option (List Char × List Char) :=
  match scanKey text with
  | some (key, first :: rest) =>
      if first = mark then (scanUntil (· = mark) rest).map fun val => (key, val.1) else none
  | _ => none

/-- A value up to a comment. -/
def scanPlain (text : List Char) : Option (List Char × List Char) :=
  match scanKey text with
  | some (key, rest) =>
      (scanUntil (fun char => char = ';' ∨ char = '#') rest).map fun val => (key, val.1)
  | none => none

/-- The mark written with its code, as it is a delimiter here. -/
def quotationMark : Char := '\x22'

/-- The other mark of quoted values. -/
def apostrophe : Char := '\x27'

/-- What a line says. -/
inductive Statement where
  | nothing
  | sectionName (sec : List Char)
  | setting (key val : List Char)
deriving DecidableEq

/-- One turn of the loop in `iniparser_new`. An empty value in quotation marks is found
if the line ends with it. -/
def scanLine (lin : List Char) : Statement :=
  let start := strskp lin
  if start.head?.all fun char => char = ';' ∨ char = '#' then .nothing
  else
    match scanSection start with
    | some sec => .sectionName (strlwc sec)
    | none =>
        match ((scanQuoted quotationMark start).or (scanQuoted apostrophe start)).or
          (scanPlain start) with
        | some (key, val) =>
            .setting (strlwc (strcrop key))
              (if val = [quotationMark, quotationMark] ∨ val = [apostrophe, apostrophe] then []
                else strcrop val)
        | none => .nothing

/-! ### Files -/

/-- The texts that `fgets` returns one after the other, as C texts: a zero byte ends
them. -/
def fgetsAll (file : List Char) : List (List Char) :=
  (piecesFrom '\n' (asciiLineSz - 1) [] file).map fun lin => lin.takeWhile (· ≠ '\x00')

/-- The section that lines belong to, and the dictionary so far. -/
structure Parser where
  sec : List Char
  dict : Dictionary

/-- A setting is stored under its section and key, a section under its own name without a
value. -/
def iniparserAddEntry (dict : Dictionary) (sec : List Char) (key : Option (List Char))
    (val : Option (List Char)) : Dictionary :=
  match key with
  | some key => dictionarySet dict ((sec ++ ':' :: key).take (2 * asciiLineSz)) val
  | none => dictionarySet dict (sec.take (2 * asciiLineSz)) val

/-- What a statement does to the parser. -/
def Parser.add (parser : Parser) : Statement → Parser
  | .nothing => parser
  | .sectionName sec => { sec := sec, dict := iniparserAddEntry parser.dict sec none none }
  | .setting key val =>
      { parser with dict := iniparserAddEntry parser.dict parser.sec (some key) (some val) }

/-- What the lines of a file say, one after another. -/
def statementsOf (file : List Char) : List Statement :=
  (fgetsAll file).map scanLine

/-- The dictionary of a file. -/
def iniparserNew (file : List Char) : Dictionary :=
  (run Parser.add { sec := [], dict := dictionaryNew 0 } (statementsOf file)).dict

/-! ### Reading a dictionary -/

/-- The default may be a null pointer, as a value may. -/
def iniparserGetstring (dict : Dictionary) (key : List Char) (dflt : Option (List Char)) :
    Except NullPointer (Option (List Char)) :=
  (dictionaryGet dict (strlwc key)).map fun found => found.getD dflt

/-- The value of `strtol` kept as an `int`. -/
def atoi (text : List Char) : Int32 :=
  Int32.ofInt (strtol text)

/-- An integer is read, or the default is taken. The null value of a section goes to `atoi`. -/
def iniparserGetint (dict : Dictionary) (key : List Char) (notfound : Int32) :
    Except NullPointer Int32 :=
  dictionaryGet dict (strlwc key) >>= fun
    | none => .ok notfound
    | some none => .error .atoi
    | some (some str) => .ok (atoi str)

/-- The first character decides; others leave the default. -/
def booleanOf (notfound : Bool) (str : List Char) : Bool :=
  if str.head?.any fun char => char ∈ ['y', 'Y', '1', 't', 'T'] then true
  else if str.head?.any fun char => char ∈ ['n', 'N', '0', 'f', 'F'] then false
  else notfound

/-- A truth value is read, or the default is taken. Of the null value of a section the first
character is taken. -/
def iniparserGetboolean (dict : Dictionary) (key : List Char) (notfound : Bool) :
    Except NullPointer Bool :=
  dictionaryGet dict (strlwc key) >>= fun
    | none => .ok notfound
    | some none => .error .subscript
    | some (some str) => .ok (booleanOf notfound str)

/-! ### The text of an ini file -/

/-- A line as one writes it. The blanks of a setting stand before the key, around the
equals sign and after the value. -/
inductive IniLine where
  | blank (blanks : List Char)
  | comment (blanks : List Char) (mark : Char) (text : List Char)
  | header (blanks sec rest : List Char)
  | plain (indent key before after val trailing remark : List Char)
  | quoted (indent key before after : List Char) (mark : Char) (val rest : List Char)

/-- The line as it is written. -/
def IniLine.text : IniLine → List Char
  | .blank blanks => blanks
  | .comment blanks mark text => blanks ++ mark :: text
  | .header blanks sec rest => blanks ++ '[' :: (sec ++ ']' :: rest)
  | .plain indent key before after val trailing remark =>
      indent ++ (key ++ before ++ '=' :: (after ++ (val ++ (trailing ++ remark))))
  | .quoted indent key before after mark val rest =>
      indent ++ (key ++ before ++ '=' :: (after ++ mark :: (val ++ mark :: rest)))

/-- What the line says. -/
def IniLine.statement : IniLine → Statement
  | .blank _ => .nothing
  | .comment _ _ _ => .nothing
  | .header _ sec _ => .sectionName (strlwc sec)
  | .plain _ key _ _ val _ _ => .setting (strlwc key) val
  | .quoted _ key _ _ _ val _ => .setting (strlwc key) (strcrop val)

/-- Blanks of one line. -/
def Blanks (blanks : List Char) : Prop :=
  ∀ char ∈ blanks, isspace char = true

instance (blanks : List Char) : Decidable (Blanks blanks) :=
  List.decidableBAll _ blanks

/-- A name has no blanks around it, and does not look like another line. -/
structure IsKey (key : List Char) : Prop where
  filled : key ≠ []
  first : ∀ char ∈ key.head?, isspace char = false ∧ char ∉ [';', '#', '[']
  last : ∀ char ∈ key.getLast?, isspace char = false
  noEquals : '=' ∉ key

/-- A plain value has no blanks around it, and holds neither a comment nor a mark at its
start. -/
structure IsPlain (val : List Char) : Prop where
  filled : val ≠ []
  first : ∀ char ∈ val.head?, isspace char = false ∧ char ≠ quotationMark ∧ char ≠ apostrophe
  last : ∀ char ∈ val.getLast?, isspace char = false
  noComment : ∀ char ∈ val, char ≠ ';' ∧ char ≠ '#'

/-- A value between marks; the two marks of an empty value are no value. -/
structure IsQuoted (mark : Char) (val : List Char) : Prop where
  isMark : mark = quotationMark ∨ mark = apostrophe
  filled : val ≠ []
  noMark : mark ∉ val
  notEmpty : val ≠ [quotationMark, quotationMark] ∧ val ≠ [apostrophe, apostrophe]

/-- The parts of a line have the characters that they may have. -/
def IniLine.Proper : IniLine → Prop
  | .blank blanks => Blanks blanks
  | .comment blanks mark _ => Blanks blanks ∧ (mark = ';' ∨ mark = '#')
  | .header blanks sec _ => Blanks blanks ∧ sec ≠ [] ∧ ']' ∉ sec
  | .plain indent key before after val trailing remark =>
      (Blanks indent ∧ Blanks before ∧ Blanks after ∧ Blanks trailing) ∧ IsKey key ∧
        IsPlain val ∧ ∀ char ∈ remark.head?, char = ';' ∨ char = '#'
  | .quoted indent key before after mark val _ =>
      (Blanks indent ∧ Blanks before ∧ Blanks after) ∧ IsKey key ∧ IsQuoted mark val

/-- A line that `fgets` reads at once. -/
structure IniLine.Legal (line : IniLine) : Prop where
  proper : line.Proper
  oneLine : '\n' ∉ line.text
  noZero : '\x00' ∉ line.text
  short : line.text.length + 1 < asciiLineSz

section Scan

variable {blanks key before after val text rest : List Char} {first mark : Char}

theorem strskp_append (blank : Blanks blanks) (rest : List Char) :
    strskp (blanks ++ rest) = strskp rest :=
  List.dropWhile_append_of_pos blank

theorem strskp_cons (filled : isspace first = false) : strskp (first :: rest) = first :: rest :=
  List.dropWhile_cons_of_neg (by rw [filled]; exact Bool.false_ne_true)

theorem strcrop_append (blank : Blanks blanks) (last : ∀ char ∈ key.getLast?, isspace char = false)
    (short : (key ++ blanks).length ≤ asciiLineSz) : strcrop (key ++ blanks) = key := by
  rw [strcrop, List.take_of_length_le short]
  exact rdropWhile_append blank last

/-- The key of a setting, and what follows the blanks after the equals sign. -/
theorem scanKey_append (isKey : IsKey key) (beforeBlank : Blanks before) (afterBlank : Blanks after)
    (filled : isspace first = false) :
    scanKey (key ++ before ++ '=' :: (after ++ first :: rest)) =
      some (key ++ before, first :: rest) := by
  have clean : ∀ char ∈ key ++ before, decide (char = '=') = false := by
    intro char member
    refine decide_eq_false fun same => ?_
    subst same
    rcases List.mem_append.mp member with inside | blank
    · exact isKey.noEquals inside
    · exact absurd (beforeBlank _ blank) (by decide)
  have word : key ++ before ≠ [] := fun empty => isKey.filled (List.append_eq_nil_iff.mp empty).1
  have stops : ∀ char ∈ ('=' :: (after ++ first :: rest)).head?, decide (char = '=') = true := by
    intro char member
    cases member
    rfl
  rw [scanKey, scanUntil_append word clean stops]
  exact congrArg (fun rest => some (key ++ before, rest))
    ((strskp_append afterBlank _).trans (strskp_cons filled))

/-- A value that begins with another character is not scanned as a quoted one. -/
theorem scanQuoted_other (isKey : IsKey key) (beforeBlank : Blanks before)
    (afterBlank : Blanks after) (filled : isspace first = false) (other : first ≠ mark) :
    scanQuoted mark (key ++ before ++ '=' :: (after ++ first :: rest)) = none := by
  rw [scanQuoted, scanKey_append isKey beforeBlank afterBlank filled]
  exact if_neg other

/-- A quoted setting is scanned for its key and value, whatever follows. -/
theorem scanQuoted_append (rest : List Char) (isKey : IsKey key) (beforeBlank : Blanks before)
    (afterBlank : Blanks after) (quoted : IsQuoted mark val) :
    scanQuoted mark (key ++ before ++ '=' :: (after ++ mark :: (val ++ mark :: rest))) =
      some (key ++ before, val) := by
  have filled : isspace mark = false := by
    rcases quoted.isMark with rfl | rfl <;> decide
  have clean : ∀ char ∈ val, decide (char = mark) = false := fun char member =>
    decide_eq_false fun same => quoted.noMark (same ▸ member)
  have stops : ∀ char ∈ (mark :: rest).head?, decide (char = mark) = true := by
    intro char member
    cases member
    exact decide_eq_true rfl
  rw [scanQuoted, scanKey_append isKey beforeBlank afterBlank filled]
  dsimp only
  rw [if_pos rfl, scanUntil_append quoted.filled clean stops]
  rfl

/-- A plain setting is scanned up to a comment. -/
theorem scanPlain_append (isKey : IsKey key) (beforeBlank : Blanks before)
    (afterBlank : Blanks after) (filled : isspace first = false)
    (noComment : ∀ char ∈ first :: val, char ≠ ';' ∧ char ≠ '#')
    (stops : ∀ char ∈ rest.head?, char = ';' ∨ char = '#') :
    scanPlain (key ++ before ++ '=' :: (after ++ first :: (val ++ rest))) =
      some (key ++ before, first :: val) := by
  have clean : ∀ char ∈ first :: val, decide (char = ';' ∨ char = '#') = false :=
    fun char member => decide_eq_false (not_or.mpr (noComment char member))
  rw [scanPlain, scanKey_append isKey beforeBlank afterBlank filled]
  dsimp only
  rw [← List.cons_append, scanUntil_append (List.cons_ne_nil first val) clean
    fun char member => decide_eq_true (stops char member)]
  rfl

/-- Before a setting neither a comment nor a section is found. -/
theorem scanLine_setting {indent start : List Char} (blank : Blanks indent) (isKey : IsKey key)
    (begins : start = key ++ text) :
    scanLine (indent ++ start) =
      match ((scanQuoted quotationMark start).or (scanQuoted apostrophe start)).or
        (scanPlain start) with
      | some (key, val) =>
          .setting (strlwc (strcrop key))
            (if val = [quotationMark, quotationMark] ∨ val = [apostrophe, apostrophe] then []
              else strcrop val)
      | none => .nothing := by
  subst begins
  obtain ⟨first, key, rfl⟩ := List.exists_cons_of_ne_nil isKey.filled
  obtain ⟨filled, other⟩ := isKey.first first rfl
  simp only [List.mem_cons, List.not_mem_nil, or_false, not_or] at other
  have noSection : scanSection (first :: (key ++ text)) = none := by
    unfold scanSection
    split
    · next same => exact (other.2.2 (List.cons.inj same).1).elim
    · rfl
  rw [scanLine, strskp_append blank, List.cons_append, strskp_cons filled, noSection]
  simp only [List.head?_cons, Option.all_some, other.1, other.2.1, or_self, decide_false,
    Bool.false_eq_true, if_false]

theorem isspace_newline : Blanks ['\n'] := by
  intro char member
  rw [List.mem_singleton.mp member]
  decide

/-- The end of a plain setting: blanks, and a remark or nothing. -/
theorem split_trailing {trailing remark : List Char} (blank : Blanks trailing)
    (marked : ∀ char ∈ remark.head?, char = ';' ∨ char = '#') :
    ∃ blanks rest, trailing ++ remark ++ ['\n'] = blanks ++ rest ∧ Blanks blanks ∧
      (∀ char ∈ rest.head?, char = ';' ∨ char = '#') ∧
        blanks.length ≤ trailing.length + 1 := by
  cases remark with
  | nil =>
      refine ⟨trailing ++ ['\n'], [], by simp, fun char member => ?_, fun _ none => ?_, ?_⟩
      · rcases List.mem_append.mp member with inside | newline
        · exact blank char inside
        · exact isspace_newline char newline
      · cases none
      · rw [List.length_append, List.length_singleton]
  | cons mark remark =>
      exact ⟨trailing, mark :: remark ++ ['\n'], by simp, blank, marked, Nat.le_succ _⟩

theorem noComment_of_blanks (blank : Blanks blanks) :
    ∀ char ∈ blanks, char ≠ ';' ∧ char ≠ '#' := by
  intro char member
  constructor <;> rintro rfl <;> exact absurd (blank _ member) (by decide)

variable {line : IniLine}

/-- Each line says what it was written for. -/
theorem scanLine_text (legal : line.Legal) : scanLine (line.text ++ ['\n']) = line.statement := by
  obtain ⟨proper, oneLine, -, short⟩ := legal
  cases line with
  | blank blanks =>
      have all : Blanks (blanks ++ ['\n']) := by
        intro char member
        rcases List.mem_append.mp member with inside | newline
        · exact proper char inside
        · exact isspace_newline char newline
      have none : strskp (blanks ++ ['\n']) = [] := List.dropWhile_eq_nil_iff.mpr all
      unfold scanLine
      rw [IniLine.text, none]
      rfl
  | comment blanks mark text =>
      obtain ⟨blank, marked⟩ := proper
      have filled : isspace mark = false := by
        rcases marked with rfl | rfl <;> decide
      rw [IniLine.text, List.append_assoc, scanLine, strskp_append blank, List.cons_append,
        strskp_cons filled]
      exact if_pos (decide_eq_true marked)
  | header blanks sec rest =>
      obtain ⟨blank, filled, clean⟩ := proper
      have named : ∀ char ∈ sec, decide (char = ']') = false := fun char member =>
        decide_eq_false fun same => clean (same ▸ member)
      have stops : ∀ char ∈ (']' :: (rest ++ ['\n'])).head?, decide (char = ']') = true := by
        intro char member
        cases member
        rfl
      have found : scanSection ('[' :: (sec ++ ']' :: (rest ++ ['\n']))) = some sec := by
        rw [scanSection, scanUntil_append filled named stops]
        rfl
      have text : (IniLine.header blanks sec rest).text ++ ['\n'] =
          blanks ++ '[' :: (sec ++ ']' :: (rest ++ ['\n'])) := by
        simp only [IniLine.text, List.append_assoc, List.cons_append]
      rw [text, scanLine, strskp_append blank, strskp_cons (by decide), found]
      rfl
  | plain indent key before after val trailing remark =>
      obtain ⟨⟨indentBlank, beforeBlank, afterBlank, trailingBlank⟩, isKey, isPlain, marked⟩ :=
        proper
      obtain ⟨first, val, rfl⟩ := List.exists_cons_of_ne_nil isPlain.filled
      obtain ⟨blanks, rest, split, blank, stops, few⟩ := split_trailing trailingBlank marked
      obtain ⟨filled, quotation, single⟩ := isPlain.first first rfl
      have text : (IniLine.plain indent key before after (first :: val) trailing remark).text ++
          ['\n'] =
            indent ++ (key ++ before ++ '=' :: (after ++ first :: (val ++ blanks ++ rest))) := by
        simp only [IniLine.text, List.append_assoc, List.cons_append, ← split]
      have noComment : ∀ char ∈ first :: (val ++ blanks), char ≠ ';' ∧ char ≠ '#' := by
        intro char member
        rw [← List.cons_append] at member
        rcases List.mem_append.mp member with inside | blanks
        · exact isPlain.noComment char inside
        · exact noComment_of_blanks blank char blanks
      have lengths := short
      simp only [IniLine.text, List.length_append, List.length_cons] at lengths
      have cropped : strcrop (first :: (val ++ blanks)) = first :: val := by
        rw [← List.cons_append]
        refine strcrop_append blank isPlain.last ?_
        simp only [List.length_append, List.length_cons]
        omega
      have named : strcrop (key ++ before) = key := by
        refine strcrop_append beforeBlank isKey.last ?_
        rw [List.length_append]
        omega
      have noMarks : ¬ (first :: (val ++ blanks) = [quotationMark, quotationMark] ∨
          first :: (val ++ blanks) = [apostrophe, apostrophe]) := by
        rintro (same | same)
        · exact quotation (List.cons.inj same).1
        · exact single (List.cons.inj same).1
      rw [text, scanLine_setting indentBlank isKey (List.append_assoc key before _),
        scanQuoted_other isKey beforeBlank afterBlank filled quotation,
        scanQuoted_other isKey beforeBlank afterBlank filled single,
        scanPlain_append isKey beforeBlank afterBlank filled noComment stops]
      dsimp only [Option.or]
      rw [if_neg noMarks, cropped, named]
      rfl
  | quoted indent key before after mark val rest =>
      obtain ⟨⟨indentBlank, beforeBlank, afterBlank⟩, isKey, isQuoted⟩ := proper
      have text : (IniLine.quoted indent key before after mark val rest).text ++ ['\n'] =
          indent ++ (key ++ before ++ '=' :: (after ++ mark :: (val ++ mark ::
            (rest ++ ['\n'])))) := by
        simp only [IniLine.text, List.append_assoc, List.cons_append]
      have lengths := short
      simp only [IniLine.text, List.length_append, List.length_cons] at lengths
      have named : strcrop (key ++ before) = key := by
        refine strcrop_append beforeBlank isKey.last ?_
        rw [List.length_append]
        omega
      have found : ((scanQuoted quotationMark (key ++ before ++ '=' :: (after ++ mark ::
          (val ++ mark :: (rest ++ ['\n']))))).or (scanQuoted apostrophe (key ++ before ++ '=' ::
            (after ++ mark :: (val ++ mark :: (rest ++ ['\n'])))))) =
              some (key ++ before, val) := by
        have here : scanQuoted mark _ = some (key ++ before, val) :=
          scanQuoted_append (rest ++ ['\n']) isKey beforeBlank afterBlank isQuoted
        rcases isQuoted.isMark with rfl | rfl
        · rw [here]
          rfl
        · rw [here, scanQuoted_other isKey beforeBlank afterBlank (by decide) (by decide)]
          rfl
      rw [text, scanLine_setting indentBlank isKey (List.append_assoc key before _), found]
      dsimp only [Option.or]
      rw [if_neg (not_or.mpr isQuoted.notEmpty), named]
      rfl

end Scan

/-! ### Words -/

/-- What names, numbers and addresses are made of. -/
def wordChar (char : Char) : Bool :=
  char.isAlphanum || char = '-' || char = '.'

/-- Letters, digits and what else may stand anywhere. -/
def IsWord (word : List Char) : Prop :=
  word ≠ [] ∧ ∀ char ∈ word, wordChar char = true

-- It is decided by the characters of the word, not by all there are.
instance (word : List Char) : Decidable (IsWord word) :=
  decidable_of_iff (word ≠ [] ∧ word.all wordChar = true)
    (and_congr_right fun _ => List.all_eq_true)

section Word

variable {word : List Char} {char other : Char}

/-- A character of words is none of the others. -/
theorem ne_of_wordChar (inside : wordChar char = true) (outside : wordChar other = false) :
    char ≠ other := by
  rintro rfl
  rw [inside] at outside
  cases outside

/-- A character of a word is no blank. -/
theorem isspace_of_wordChar (inside : wordChar char = true) : isspace char = false := by
  have code (value : Nat) (outside : wordChar (Char.ofNat value) = false) :
      char.toNat ≠ value := by
    rintro rfl
    rw [Char.ofNat_toNat, inside] at outside
    cases outside
  simp only [isspace, ne_of_wordChar inside (by decide : wordChar ' ' = false),
    ne_of_wordChar inside (by decide : wordChar '\t' = false),
    ne_of_wordChar inside (by decide : wordChar '\n' = false),
    ne_of_wordChar inside (by decide : wordChar '\r' = false),
    code 11 (by decide), code 12 (by decide), or_self, decide_false]

/-- A word may be a key. -/
theorem isKey_of_word (isWord : IsWord word) : IsKey word where
  filled := isWord.1
  first char member := by
    have inside := isWord.2 char (List.mem_of_mem_head? member)
    refine ⟨isspace_of_wordChar inside, ?_⟩
    simp only [List.mem_cons, List.not_mem_nil, or_false, not_or]
    exact ⟨ne_of_wordChar inside (by decide), ne_of_wordChar inside (by decide),
      ne_of_wordChar inside (by decide)⟩
  last char member := isspace_of_wordChar (isWord.2 char (List.mem_of_mem_getLast? member))
  noEquals member := ne_of_wordChar (isWord.2 _ member) (by decide) rfl

/-- A word is a plain value. -/
theorem isPlain_of_word (isWord : IsWord word) : IsPlain word where
  filled := isWord.1
  first char member := by
    have inside := isWord.2 char (List.mem_of_mem_head? member)
    exact ⟨isspace_of_wordChar inside, ne_of_wordChar inside (by decide),
      ne_of_wordChar inside (by decide)⟩
  last char member := isspace_of_wordChar (isWord.2 char (List.mem_of_mem_getLast? member))
  noComment char member :=
    ⟨ne_of_wordChar (isWord.2 char member) (by decide),
      ne_of_wordChar (isWord.2 char member) (by decide)⟩

end Word

/-! ### What a file says -/

/-- The lines, each ended by a newline. -/
def textOf (lines : List IniLine) : List Char :=
  lines.flatMap fun line => line.text ++ ['\n']

/-- The key under which a setting of a section is stored. -/
def longKey (sec key : List Char) : List Char :=
  (sec ++ ':' :: key).take (2 * asciiLineSz)

/-- What statements change in the dictionary. -/
def changesOf (sec : List Char) : List Statement → List Change
  | [] => []
  | .nothing :: rest => changesOf sec rest
  | .sectionName name :: rest => .set (name.take (2 * asciiLineSz)) none :: changesOf name rest
  | .setting key val :: rest => .set (longKey sec key) (some val) :: changesOf sec rest

/-- What is said of each key: the last statement about it counts. -/
def contentOf (statements : List Statement) : Content :=
  run Content.change (fun _ => none) (changesOf [] statements)

/-- Parsing statements is changing the dictionary as they say. -/
theorem dict_run (parser : Parser) (statements : List Statement) :
    (run Parser.add parser statements).dict =
      run Dictionary.change parser.dict (changesOf parser.sec statements) := by
  induction statements generalizing parser with
  | nil => rfl
  | cons statement rest ih =>
      rw [run_cons, ih]
      cases statement <;> rfl

variable {key : List Char} {lines : List IniLine}

theorem dictionaryGet_iniparserNew (file : List Char) (nonzero : dictionaryHash key ≠ 0) :
    dictionaryGet (iniparserNew file) key = .ok (contentOf (statementsOf file) key) := by
  rw [iniparserNew, dict_run]
  exact dictionaryGet_run 0 _ nonzero

/-- A written file says what its lines say. -/
theorem statementsOf_textOf (legal : ∀ line ∈ lines, line.Legal) :
    statementsOf (textOf lines) = lines.map IniLine.statement := by
  have pieces : piecesFrom '\n' (asciiLineSz - 1) [] (textOf lines) =
      lines.map fun line => line.text ++ ['\n'] :=
    piecesFrom_flatMap (fun line member => (legal line member).oneLine) fun line member =>
      Nat.lt_sub_of_add_lt (legal line member).short
  rw [statementsOf, fgetsAll, pieces, List.map_map, List.map_map]
  refine List.map_congr_left fun line member => ?_
  have whole : (line.text ++ ['\n']).takeWhile (· ≠ '\x00') = line.text ++ ['\n'] := by
    refine List.takeWhile_eq_self_iff.mpr fun char inside => decide_eq_true fun zero => ?_
    subst zero
    rcases List.mem_append.mp inside with inside | newline
    · exact (legal line member).noZero inside
    · exact absurd newline (by decide)
  exact (congrArg scanLine whole).trans (scanLine_text (legal line member))

/-- However its lines are laid out, a file is read for what its lines say. -/
theorem dictionaryGet_textOf (legal : ∀ line ∈ lines, line.Legal)
    (nonzero : dictionaryHash key ≠ 0) :
    dictionaryGet (iniparserNew (textOf lines)) key =
      .ok (contentOf (lines.map IniLine.statement) key) := by
  rw [dictionaryGet_iniparserNew _ nonzero, statementsOf_textOf legal]

/-- The port is set twice, once between quotation marks. -/
def portLines : List IniLine :=
  [.comment [] ';' " ports".toList, .header [] "General".toList [],
    .plain [' '] "ViewerPort".toList [' '] [' '] "5500".toList ['\t'] "; for viewers".toList,
    .quoted [] "viewerport".toList [] [] quotationMark " 5900 ".toList []]

theorem dictionaryGet_textOf_portLines :
    dictionaryGet (iniparserNew (textOf portLines)) "general:viewerport".toList =
      .ok (some (some " 5900".toList)) := by
  have legal : ∀ line ∈ portLines, line.Legal := by
    intro line member
    simp only [portLines, List.mem_cons, List.not_mem_nil, or_false] at member
    rcases member with rfl | rfl | rfl | rfl
    · exact ⟨⟨by decide, Or.inl rfl⟩, by decide, by decide, by decide⟩
    · exact ⟨⟨by decide, by decide, by decide⟩, by decide, by decide, by decide⟩
    · have comment : ∀ char ∈ "; for viewers".toList.head?, char = ';' ∨ char = '#' := by
        intro char member
        cases member
        exact Or.inl rfl
      have blanks : Blanks [' '] ∧ Blanks [' '] ∧ Blanks [' '] ∧ Blanks ['\t'] := by decide
      exact ⟨⟨blanks, isKey_of_word (by decide), isPlain_of_word (by decide), comment⟩,
        by decide, by decide, by decide⟩
    · have quoted : IsQuoted quotationMark " 5900 ".toList :=
        ⟨Or.inl rfl, by decide, by decide, by decide⟩
      exact ⟨⟨by decide, isKey_of_word (by decide), quoted⟩, by decide, by decide, by decide⟩
  have said : contentOf (portLines.map IniLine.statement) "general:viewerport".toList =
      some (some " 5900".toList) := by decide +kernel
  rw [dictionaryGet_textOf legal (by decide +kernel), said]

/-- An empty value is found at the end of a line only, since the newline is part of what
is compared with the two marks. -/
example : scanLine "key = \x22\x22\n".toList =
    .setting "key".toList [quotationMark, quotationMark] ∧
      scanLine "key = \x22\x22".toList = .setting "key".toList [] := by decide +kernel

end Repeater
