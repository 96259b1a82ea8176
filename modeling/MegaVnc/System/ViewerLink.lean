import MegaVnc.Repeater.Descriptors
import MegaVnc.System.Delivery
import MegaVnc.System.DomainIntegrity
import MegaVnc.System.RepeaterId
import MegaVnc.Viewer.Rfb

/-! # From the page of a PC to its row

The page of a PC gives the viewer its repeaterId. The viewer answers the version of the
repeater with it, the repeater reads it as an id code, and the events about that code are
about a row of the database.
-/

namespace MegaVnc

open Relational Repeater Text Transition Fallible
open Application (step initial baseServerConnect)

/-! ### The repeater -/

/-- What the calls of `recv` return. -/
def receivedOf (results : List RecvResult) : List UInt8 :=
  results.flatMap fun
    | .received bytes => bytes
    | _ => []

/-- The text in the buffer of a read that has filled it. -/
def textIn (buffer : List UInt8) : List Char :=
  (buffer.takeWhile (· ≠ 0)).map fun byte => Char.ofNat byte.toNat

section Reading

variable {timeOut timeOutCtr : Nat} {rest : List RecvResult}

/-- A read of as many bytes as arrive is not disturbed by how they are split, nor by
waiting as long as the time is not over. -/
theorem nonBlockingRead_receivedOf {results : List RecvResult}
    (goesOn : RecvResult.received [] ∉ results)
    (waits : timeOutCtr + results.count .again < timeOut) :
    nonBlockingRead timeOut timeOutCtr (receivedOf results).length results =
      (receivedOf results, some .finished) := by
  induction results generalizing timeOutCtr with
  | nil =>
      unfold nonBlockingRead
      exact if_pos (Or.inl rfl)
  | cons result rest ih =>
      have later := List.not_mem_of_not_mem_cons goesOn
      by_cases done : (receivedOf (result :: rest)).length = 0
      · unfold nonBlockingRead
        rw [if_pos (Or.inl done), List.length_eq_zero_iff.mp done]
      · cases result with
        | received bytes =>
            rw [List.count_cons_of_ne (by simp)] at waits
            have split : receivedOf (.received bytes :: rest) = bytes ++ receivedOf rest := rfl
            cases bytes with
            | nil => exact (goesOn List.mem_cons_self).elim
            | cons byte bytes =>
                have whole : (byte :: bytes).take (byte :: bytes ++ receivedOf rest).length =
                    byte :: bytes :=
                  List.take_of_length_le (by rw [List.length_append]; omega)
                have left : (byte :: bytes ++ receivedOf rest).length - (byte :: bytes).length =
                    (receivedOf rest).length := by
                  rw [List.length_append]
                  omega
                unfold nonBlockingRead
                rw [if_neg (not_or.mpr ⟨done, by omega⟩)]
                dsimp only
                rw [split, whole, left, ih later waits]
        | again =>
            rw [List.count_cons_self] at waits
            have same : receivedOf (.again :: rest) = receivedOf rest := rfl
            unfold nonBlockingRead
            rw [if_neg (not_or.mpr ⟨done, by omega⟩)]
            dsimp only
            rw [same, ih later (by omega)]
        | failed =>
            rw [List.count_cons_of_ne (by decide)] at waits
            have same : receivedOf (.failed :: rest) = receivedOf rest := rfl
            unfold nonBlockingRead
            rw [if_neg (not_or.mpr ⟨done, by omega⟩)]
            dsimp only
            rw [same, ih later waits]

/-- What is sent is read up to the zeros that fill it up. -/
theorem textIn_sent {text : List Char} (count : Nat)
    (bytes : ∀ char ∈ text, 0 < char.toNat ∧ char.toNat < 256) :
    textIn ((text ++ List.replicate count '\x00').map fun char => char.toNat.toUInt8) = text := by
  induction text with
  | nil =>
      cases count with
      | zero => rfl
      | succ count => rfl
  | cons char rest ih =>
      obtain ⟨positive, small⟩ := bytes char List.mem_cons_self
      have value : char.toNat.toUInt8.toNat = char.toNat := by
        rw [UInt8.toNat_ofNat', Nat.mod_eq_of_lt small]
      have nonzero : char.toNat.toUInt8 ≠ 0 := by
        intro zero
        rw [zero] at value
        exact absurd value.symm (Nat.pos_iff_ne_zero.mp positive)
      have later : textIn _ = rest := ih fun char member =>
        bytes char (List.mem_cons_of_mem _ member)
      unfold textIn at later ⊢
      rw [List.cons_append, List.map_cons, List.takeWhile_cons_of_pos (by simpa using nonzero),
        List.map_cons, later, value, Char.ofNat_toNat]

end Reading

/-! ### Id codes -/

/-- The code of an id is an `int`. -/
theorem parseId_decimal {id : Nat} (isLong : id < 2 ^ 63) :
    parseId ("ID:".toList ++ decimal id) =
      if Int32.ofNat id ≤ 0 then -1 else (Int32.ofNat id).toInt64 := by
  have digits : (decimal (id : Int)).all Char.isDigit = true :=
    List.all_eq_true.mpr fun char member =>
      Nat.isDigit_of_mem_toDigits (by decide) (by decide) member
  have value : Nat.ofDigitChars 10 (decimal (id : Int)) 0 = id := Nat.ofDigitChars_ten_toDigits
  have isCode : checkIdCode ("ID:".toList ++ decimal (id : Int)) = true := rfl
  have rest : ("ID:".toList ++ decimal (id : Int)).drop 3 = decimal (id : Int) := rfl
  unfold parseId
  dsimp only
  rw [rest, if_neg (not_not.mpr isCode), if_neg (not_not.mpr digits), value,
    Nat.min_eq_left (Nat.le_sub_one_of_lt isLong)]

/-- The code is the id, unless the id does not fit. -/
theorem parseId_toInt_iff {id : Nat} (positive : 0 < id) (isLong : id < 2 ^ 63) :
    (parseId ("ID:".toList ++ decimal id)).toInt = id ↔ id < 2 ^ 31 := by
  rw [parseId_decimal isLong]
  have low := (Int32.ofNat id).minValue_le_toInt
  have high := (Int32.ofNat id).toInt_lt
  constructor
  · intro same
    split at same
    · exact absurd (same.symm.trans (by decide : (-1 : Int64).toInt = -1)) (by omega)
    · rw [Int32.toInt_toInt64] at same
      omega
  · intro small
    have value : (Int32.ofNat id).toInt = id := Int32.toInt_ofNat_of_lt small
    have above : ¬ Int32.ofNat id ≤ 0 := by
      rw [Int32.le_iff_toInt_le, value]
      simp
      omega
    rw [if_neg above, Int32.toInt_toInt64, value]

/-- The message with the id fills the buffer of the repeater. -/
theorem length_idMessage {id : Nat} (isLong : id < 2 ^ 63) :
    (Rfb.idMessage (decimal id)).length = maxHostNameLen := by
  have digits : (decimal (id : Int)).length ≤ 19 :=
    length_decimal_le_of_nonneg (by decide) (Int.natCast_nonneg id) (by omega)
  have three : "ID:".toList.length = 3 := rfl
  simp only [Rfb.idMessage, List.length_append, List.length_replicate, maxHostNameLen]
  omega

/-- The characters of the id are bytes other than zero. -/
theorem byte_of_id (id : Nat) :
    ∀ char ∈ "ID:".toList ++ decimal id, 0 < char.toNat ∧ char.toNat < 256 := by
  intro char member
  rcases List.mem_append.mp member with mark | digit
  · have marks : ∀ char ∈ ['I', 'D', ':'], 0 < char.toNat ∧ char.toNat < 256 := by simp
    exact marks char mark
  · have isDigit : char.isDigit = true :=
      Nat.isDigit_of_mem_toDigits (by decide) (by decide) digit
    simp only [Char.isDigit, Bool.and_eq_true, decide_eq_true_eq, UInt32.le_iff_toNat_le]
      at isDigit
    exact ⟨Nat.lt_of_lt_of_le (by decide) isDigit.1, Nat.lt_of_le_of_lt isDigit.2 (by decide)⟩

/-! ### From the page to the row -/

variable {environment : Environment} {world : World}

/-- The viewer page shows the repeater id of the stored PC, which is positive. -/
theorem repeaterId_shown (reached : Application.Reachable environment world) {user : User}
    {id repeaterId : Long} {status : Status} {pcName accessPassword : String}
    (shown : Application.showViewer world.db user id =
      .ok (.viewer status repeaterId pcName accessPassword)) :
    0 < repeaterId ∧ ∃ remotePc ∈ world.db.remotePc.rows,
      remotePc.id = id ∧ remotePc.repeaterId = repeaterId := by
  simp only [Application.showViewer, RemotePcService.findById, bind_eq_ok, orElseThrow_eq_ok,
    throwIf_eq_ok, pure_eq_ok, Table.findById_eq_some] at shown
  obtain ⟨remotePc, ⟨_, ⟨member, named⟩, -, -, _, -, _, -, rfl⟩, same⟩ := shown
  cases same
  have least := reached.intact.repeaterIds _ member
  exact ⟨Int.lt_of_lt_of_le (by decide) least, _, member, named, rfl⟩

/-- The administrator becomes a member of the base group, and the base PC's server
connects. -/
def basePcOnline : List Operation :=
  [.assignGroup { selectedGroupId := some 1, selectedUserId := some 1 }, baseServerConnect]

/-- The id of the base PC arrives in two pieces. -/
def idInTwo : List RecvResult :=
  let bytes := (Rfb.idMessage (decimal 100)).map fun char => char.toNat.toUInt8
  [.received (bytes.take 4), .again, .received (bytes.drop 4)]

end MegaVnc
