import MegaVnc.Repeater.RepeaterEvents

/-! # Hosts, ports and addresses of Mode 1

In Mode 1 a viewer names the server it wants as a host and a port. The repeater
resolves the host, and may check the address against lists of the ini file. An
address goes through its text in between, which loses nothing.
-/

namespace Repeater

open Text

/-! ### Numbers in C texts -/

/-- The blanks of the C library. -/
def isspace (char : Char) : Bool :=
  char = ' ' ∨ char = '\t' ∨ char = '\n' ∨ char.toNat = 11 ∨ char.toNat = 12 ∨ char = '\r'

/-- `strtol` in base 10, limited to the range of a `long`. -/
def strtol (text : List Char) : Int :=
  let magnitude (digits : List Char) : Nat := Nat.ofDigitChars 10 (digits.takeWhile Char.isDigit) 0
  match text.dropWhile isspace with
  | '-' :: digits => max (-2 ^ 63) (-magnitude digits)
  | '+' :: digits => min (2 ^ 63 - 1) (magnitude digits)
  | digits => min (2 ^ 63 - 1) (magnitude digits)

/-- `sscanf` with `%d` needs a digit; the number is stored in an `int`. -/
def sscanfInt (text : List Char) : Option Int32 :=
  let started : Bool := match text.dropWhile isspace with
    | '-' :: digit :: _ => digit.isDigit
    | '+' :: digit :: _ => digit.isDigit
    | digit :: _ => digit.isDigit
    | [] => false
  if started then some (Int32.ofInt (strtol text)) else none

/-- A number starts with a digit, which is no space. -/
theorem dropWhile_isspace_toDigits (value : Nat) :
    (Nat.toDigits 10 value).dropWhile isspace = Nat.toDigits 10 value := by
  cases digits : Nat.toDigits 10 value with
  | nil => rfl
  | cons first rest =>
      refine List.dropWhile_cons_of_neg ?_
      have member : first ∈ Nat.toDigits 10 value := digits ▸ List.mem_cons_self
      have other (char : Char) (noDigit : char.isDigit = false) : first ≠ char :=
        ne_of_mem_toDigits member char noDigit
      have digit := Nat.isDigit_of_mem_toDigits (by decide) (by decide) member
      have large : 48 ≤ first.toNat := by
        rw [Char.isDigit, Bool.and_eq_true, decide_eq_true_eq, decide_eq_true_eq] at digit
        exact digit.1
      unfold isspace
      simp only [other ' ' rfl, other '\t' rfl, other '\n' rfl, other '\r' rfl, false_or, or_false,
        decide_eq_true_eq]
      omega

/-- `strtol` reads back what `%d` has printed. -/
theorem strtol_toDigits {value : Nat} (small : value < 2 ^ 63) :
    strtol (Nat.toDigits 10 value) = value := by
  have digits : (Nat.toDigits 10 value).takeWhile Char.isDigit = Nat.toDigits 10 value :=
    List.takeWhile_eq_self_iff.mpr fun char member =>
      Nat.isDigit_of_mem_toDigits (by decide) (by decide) member
  unfold strtol
  rw [dropWhile_isspace_toDigits]
  split
  · next digits same =>
      have minus : '-' ∈ Nat.toDigits 10 value := same ▸ List.mem_cons_self
      exact (ne_of_mem_toDigits minus '-' rfl rfl).elim
  · next digits same =>
      have plus : '+' ∈ Nat.toDigits 10 value := same ▸ List.mem_cons_self
      exact (ne_of_mem_toDigits plus '+' rfl rfl).elim
  · dsimp only
    rw [digits, Nat.ofDigitChars_ten_toDigits]
    omega

/-! ### Addresses -/

/-- The size of the buffers for short texts. -/
def myTmpBufLen : Nat := 255

/-- `inet_ntoa`. -/
def inetNtoa (address : AddrParts) : List Char :=
  decimal address.a.toNat ++ '.' :: (decimal address.b.toNat ++ '.' ::
    (decimal address.c.toNat ++ '.' :: decimal address.d.toNat))

/-- One of the four numbers; 255 stands for what is no byte. -/
def ipVal (text : List Char) : UInt8 :=
  let value := strtol text
  if value < 0 ∨ 255 < value then 255 else UInt8.ofNat value.toNat

/-- The numbers before the next dots; 255 when there is none. -/
def ipVals : Nat → List Char → List UInt8
  | 0, _ => []
  | count + 1, start =>
      if '.' ∈ start then
        ipVal (start.takeWhile (· ≠ '.')) :: ipVals count ((start.dropWhile (· ≠ '.')).drop 1)
      else 255 :: ipVals count start

/-- A byte is read back from its digits. -/
theorem ipVal_decimal (byte : UInt8) : ipVal (decimal byte.toNat) = byte := by
  have small : byte.toNat < 2 ^ 8 := byte.toNat_lt
  have read : strtol (decimal byte.toNat) = byte.toNat := strtol_toDigits (by omega)
  unfold ipVal
  dsimp only
  rw [read, if_neg (by omega)]
  exact UInt8.ofNat_toNat

/-- The part of an address before a point is read as its byte. -/
theorem ipVals_decimal (byte : UInt8) (count : Nat) (rest : List Char) :
    ipVals (count + 1) (decimal byte.toNat ++ '.' :: rest) = byte :: ipVals count rest := by
  have clean : '.' ∉ decimal byte.toNat := not_mem_decimal rfl (by decide)
  have before : ∀ char ∈ decimal byte.toNat, decide (char ≠ '.') = true := by
    intro char member
    exact decide_eq_true fun same => clean (same ▸ member)
  rw [ipVals, if_pos (List.mem_append_right _ List.mem_cons_self),
    List.takeWhile_append_of_pos before, List.dropWhile_append_of_pos before]
  have dot : decide ('.' ≠ '.') = false := by decide
  simp only [List.takeWhile_cons, List.dropWhile_cons, dot, Bool.false_eq_true, if_false,
    List.append_nil, List.drop_succ_cons, List.drop_zero, ipVal_decimal]

/-- An address is read from a text; what is missing is 255. -/
def getAddrPartsFromString (ipString : List Char) : AddrParts :=
  let values := ipVals 4 ((ipString.take myTmpBufLen ++ ['.']).take myTmpBufLen)
  { a := values.getD 0 255
    b := values.getD 1 255
    c := values.getD 2 255
    d := values.getD 3 255 }

theorem length_decimal_byte (byte : UInt8) : (decimal byte.toNat).length ≤ 3 := by
  have small : byte.toNat < 2 ^ 8 := byte.toNat_lt
  exact length_decimal_le_of_nonneg (by decide) (by omega) (by omega)

/-- An address that was written is read back. -/
theorem getAddrPartsFromString_inetNtoa (address : AddrParts) :
    getAddrPartsFromString (inetNtoa address) = address := by
  have a := length_decimal_byte address.a
  have b := length_decimal_byte address.b
  have c := length_decimal_byte address.c
  have d := length_decimal_byte address.d
  have length : (inetNtoa address).length ≤ 15 := by
    simp only [inetNtoa, List.length_append, List.length_cons]
    omega
  have whole : ((inetNtoa address).take myTmpBufLen ++ ['.']).take myTmpBufLen =
      inetNtoa address ++ ['.'] := by
    have fits : (inetNtoa address).take myTmpBufLen = inetNtoa address :=
      List.take_of_length_le (by unfold myTmpBufLen; omega)
    rw [fits]
    apply List.take_of_length_le
    rw [List.length_append, List.length_singleton]
    unfold myTmpBufLen
    omega
  have values : ipVals 4 (inetNtoa address ++ ['.']) =
      [address.a, address.b, address.c, address.d] := by
    simp only [inetNtoa, List.append_assoc, List.cons_append, ipVals_decimal]
    rfl
  unfold getAddrPartsFromString
  dsimp only
  rw [whole, values]
  rfl

/-! ### Hosts and ports -/

/-- Port numbers up to 99 are displays, counted from this port. -/
def rfbPortOffset : Int32 := 5900

/-- The size of the buffer of an id. -/
def maxHostNameLen : Nat := 250

/-- The host and the port of an id that is not an id code. -/
def parseHostAndPort (id : List Char) : Option (List Char × Int32) :=
  if maxHostNameLen + 1 < id.length then none
  else if ':' ∈ id then
    let host := id.takeWhile (· ≠ ':')
    match (id.dropWhile (· ≠ ':')).drop 1 with
    | ':' :: port => (sscanfInt port).map fun port => (host, port)
    | display =>
        (sscanfInt display).map fun port =>
          (host, if port < 100 then port + rfbPortOffset else port)
  else some (id, rfbPortOffset)

/-! ### Address lists -/

/-- The settings of Mode 1 in the ini file. -/
structure Mode1 where
  allowedMode1ServerPort : Int32
  requireListedServer : Bool
  srvListAllow : List AddrParts
  srvListDeny : List AddrParts

/-- A listed address stands for a range where it has a 0. -/
def covers (listed srvAddr : AddrParts) : Bool :=
  (srvAddr.a = listed.a ∨ listed.a = 0) ∧ (srvAddr.b = listed.b ∨ listed.b = 0) ∧
    (srvAddr.c = listed.c ∨ listed.c = 0) ∧ (srvAddr.d = listed.d ∨ listed.d = 0)

/-- Whether a part of an address is the given byte. -/
def hasPart (byte : UInt8) (address : AddrParts) : Bool :=
  address.a = byte ∨ address.b = byte ∨ address.c = byte ∨ address.d = byte

/-- A range of the deny list covers the address. -/
def isServerAddressDenied (mode1 : Mode1) (srvAddr : AddrParts) : Bool :=
  mode1.srvListDeny.any fun listed => covers listed srvAddr

/-- A range of the allow list covers the address, and none of the deny list does. -/
def isServerAddressAllowed (mode1 : Mode1) (serverIp : List Char) : Bool :=
  let srvAddr := getAddrPartsFromString serverIp
  mode1.srvListAllow.any fun listed =>
    !hasPart 255 listed && !hasPart 255 srvAddr && !hasPart 0 srvAddr && covers listed srvAddr &&
      !isServerAddressDenied mode1 srvAddr

/-- What the ini file allows: deny entries are stronger. -/
structure Mode1.Allows (mode1 : Mode1) (server : AddrParts) : Prop where
  listed : ∃ entry ∈ mode1.srvListAllow, hasPart 255 entry = false ∧ covers entry server
  notDenied : ∀ entry ∈ mode1.srvListDeny, covers entry server = false
  proper : hasPart 0 server = false ∧ hasPart 255 server = false

/-- The code's test is whether Mode 1 allows the address. -/
theorem isServerAddressAllowed_iff (mode1 : Mode1) (server : AddrParts) :
    isServerAddressAllowed mode1 (inetNtoa server) = true ↔ mode1.Allows server := by
  unfold isServerAddressAllowed isServerAddressDenied
  dsimp only
  rw [getAddrPartsFromString_inetNtoa]
  simp only [List.any_eq_true, Bool.and_eq_true, Bool.not_eq_true', List.any_eq_false]
  constructor
  · rintro ⟨entry, member, ⟨⟨⟨listed, proper⟩, nonzero⟩, covered⟩, notDenied⟩
    exact ⟨⟨entry, member, listed, covered⟩,
      fun denied present => Bool.eq_false_of_not_eq_true (notDenied denied present),
      nonzero, proper⟩
  · rintro ⟨⟨entry, member, listed, covered⟩, notDenied, nonzero, proper⟩
    refine ⟨entry, member, ⟨⟨⟨listed, proper⟩, nonzero⟩, covered⟩, fun denied present => ?_⟩
    rw [notDenied denied present]
    decide

end Repeater
