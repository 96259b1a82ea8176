import MegaVnc.Repeater.TableCodes

/-! # The codes of Mode 1

Mode 1 invents a code for each session, downwards from -1 and round again after the
millionth, without a look at the tables. In the first million calls the code is new.
-/

namespace Repeater

open Slots Transition

/-- Above the lowest code the next one is one less. -/
theorem toInt_nextMode1ConnCode {code : Int64} (low : -1000000 < code.toInt)
    (high : code.toInt ≤ 0) : (nextMode1ConnCode code).toInt = code.toInt - 1 := by
  have one : (1 : Int64).toInt = 1 := by decide
  have least : minInventedConnCode.toInt = -1000000 := by decide
  have less : (code - 1).toInt = code.toInt - 1 := by
    rw [Int64.toInt_sub, one, Int.bmod_eq_of_le (by omega) (by omega)]
  have enough : ¬ code - 1 < minInventedConnCode := by
    rw [Int64.lt_iff_toInt_lt, less, least]
    omega
  unfold nextMode1ConnCode
  rw [if_neg enough, less]

namespace Process

/-- At most `count` codes have been invented, and none that is still to come is in a
table. -/
structure Inventing (count : Nat) (process : Process) : Prop where
  invented : -(count : Int) ≤ process.mode1ConnCode.toInt ∧ process.mode1ConnCode.toInt ≤ 0
  above : process.Coded fun code => process.mode1ConnCode.toInt ≤ code.toInt

variable {settings : Settings} {process : Process} {count : Nat}
  {calls : List (Int64 × ProcessCall)}

theorem inventing_start (config : Config) : (Process.start config).Inventing 0 where
  invented := (by decide : -((0 : Nat) : Int) ≤ (0 : Int64).toInt ∧ (0 : Int64).toInt ≤ 0)
  above := coded_start config (Int.le_refl _)

/-- The codes there are are at least the last one that was invented, and so are the ids
that are admitted. -/
theorem Inventing.step (inventing : process.Inventing count) (few : count < 1000000)
    (call : Int64 × ProcessCall) : (process.step settings call).Inventing (count + 1) := by
  obtain ⟨⟨low, high⟩, above⟩ := inventing
  have next : (nextMode1ConnCode process.mode1ConnCode).toInt = process.mode1ConnCode.toInt - 1 :=
    toInt_nextMode1ConnCode (by omega) high
  have zero : (0 : Int64).toInt = 0 := by decide
  have positive : ∀ code, settings.config.Admits code → 0 < code.toInt := by
    intro code admits
    have less := Int64.lt_iff_toInt_lt.mp admits.1
    omega
  rcases mode1ConnCode_step call with same | invented
  · refine ⟨by rw [same]; omega, ?_⟩
    rw [same]
    refine above.step (by omega) (fun code admits => ?_) call fun changed => ?_
    · have bound := positive code admits
      omega
    · rw [same] at changed
      rw [← changed] at next
      omega
  · refine ⟨by rw [invented, next]; omega, ?_⟩
    rw [invented, next]
    refine Coded.step ⟨⟨fun side info member => ?_, fun proc member => ?_⟩,
      fun relay member => ?_⟩ (by omega) (fun code admits => ?_) call fun _ => by omega
    · have bound := above.tables.infos side info member
      omega
    · have bound := above.tables.procs proc member
      omega
    · have bound := above.relays relay member
      omega
    · have bound := positive code admits
      omega

/-- The next code is below all codes there are. -/
theorem Inventing.fresh (inventing : process.Inventing count) (few : count < 1000000)
    (called : ProcessCall) : called.Fresh process := by
  obtain ⟨low, high⟩ := inventing.invented
  have next := toInt_nextMode1ConnCode (by omega) high
  cases called with
  | acceptConnection connectionFrom accepted =>
      intro id _ _ side
      refine findInfo_eq_none.mpr (entry_eq_none.mpr fun info member same => ?_)
      have bound := inventing.above.tables.infos side info member
      rw [same, next] at bound
      omega
  | connectionRemover _ _ _ => trivial
  | cleanUpAfterRepeaterProcExit _ _ => trivial

/-- As long as there are at most a million calls, each code is new when it is invented. -/
theorem Inventing.along (inventing : process.Inventing count)
    (few : count + calls.length ≤ 1000000) :
    Along (Process.step settings) (fun process call => call.2.Fresh process) process calls := by
  induction calls generalizing process count with
  | nil => trivial
  | cons call rest ih =>
      rw [List.length_cons] at few
      exact ⟨inventing.fresh (by omega) call.2, ih (inventing.step (by omega) call) (by omega)⟩

theorem fresh_run (settings : Settings) (few : calls.length ≤ 1000000) :
    Along (Process.step settings) (fun process call => call.2.Fresh process)
      (.start settings.config) calls :=
  (inventing_start settings.config).along (by omega)

end Process

end Repeater
