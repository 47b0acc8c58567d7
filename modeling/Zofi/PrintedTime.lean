import Zofi.Lib.MixedRadix
import Zofi.Model.Printing

/-! For which times prettyPrintTime() prints the digits of the time in days, hours, minutes and
seconds. -/
namespace Zofi.PrintedTime
open MixedRadix Model.Printing

structure CanonicalTime (seconds : Nat) (printed : List (Nat × Nat × String)) : Prop where
  occupied : printed ≠ []
  consecutive : printed.map Prod.snd <:+ timeUnits
  total : (printed.map fun (unit,secondsInUnit,_) => unit * secondsInUnit).sum = seconds
  hoursBelow : ∀ unit, (unit,secsInHour,"h") ∈ printed → unit < 24
  minutesBelow : ∀ unit, (unit,secsInMin,"m") ∈ printed → unit < 60
  secondsBelow : ∀ unit, (unit,secsInSec,"s") ∈ printed → unit < 60
  leading : seconds ≠ 0 → ∀ first ∈ printed.head?, first.1 ≠ 0

theorem timeUnits_scale : Scale timeUnits := by
  unfold timeUnits
  simp only [Scale]
  decide

theorem printUnits_on (units : List (Nat × String)) (seconds : Nat) :
    printUnits units true seconds = split units seconds := by
  induction units generalizing seconds with
  | nil => rfl
  | cons unit units ih =>
    have rest : seconds - seconds / unit.1 * unit.1 = seconds % unit.1 := by
      rw [Nat.mul_comm,Nat.mod_def]
    rw [printUnits,if_pos (by simp),split]
    dsimp only
    rw [ih,rest]

theorem printUnits_off (units : List (Nat × String)) (seconds : Nat) :
    printUnits units false seconds = split (units.dropWhile fun unit => decide (seconds ≤ unit.1)) seconds := by
  induction units with
  | nil => rfl
  | cons unit units ih =>
    by_cases exceeds : unit.1 < seconds
    · rw [List.dropWhile_cons_of_neg (by simpa using exceeds),← printUnits_on]
      rw [printUnits,printUnits,if_pos (by simpa using exceeds),if_pos (by simp)]
    · rw [List.dropWhile_cons_of_pos (by simpa using exceeds),printUnits,if_neg (by simpa using exceeds),ih]

theorem consecutive_units (big small : Nat × String) : [big,small] <:+: timeUnits ↔
    (big = (secsInDay,"d") ∧ small = (secsInHour,"h")) ∨ (big = (secsInHour,"h") ∧ small = (secsInMin,"m")) ∨
      (big = (secsInMin,"m") ∧ small = (secsInSec,"s")) := by
  simp [timeUnits,List.infix_cons_iff,List.cons_prefix_cons]

theorem canonicalTime_canonical (seconds : Nat) (printed : List (Nat × Nat × String)) :
    CanonicalTime seconds printed ↔ Canonical timeUnits seconds printed := by
  constructor
  · intro time
    refine ⟨time.occupied,time.consecutive,time.total,?_,time.leading⟩
    intro big small consecutive value member
    rcases (consecutive_units big small).mp consecutive with ⟨rfl,rfl⟩ | ⟨rfl,rfl⟩ | ⟨rfl,rfl⟩
    · have bound := time.hoursBelow value member
      simp only [secsInDay,secsInHour]
      omega
    · have bound := time.minutesBelow value member
      simp only [secsInHour,secsInMin]
      omega
    · have bound := time.secondsBelow value member
      simp only [secsInMin,secsInSec]
      omega
  · intro canonical
    have bounded (big small : Nat × String) (value : Nat) (member : (value,small) ∈ printed)
        (consecutive : [big,small] <:+: timeUnits) : value * small.1 < big.1 :=
      canonical.bounded big small consecutive value member
    refine ⟨canonical.occupied,canonical.consecutive,canonical.total,?_,?_,?_,canonical.leading⟩
    · intro unit member
      have bound := bounded (secsInDay,"d") _ unit member ((consecutive_units _ _).mpr (.inl ⟨rfl,rfl⟩))
      simp only [secsInDay,secsInHour] at bound
      omega
    · intro unit member
      have bound := bounded (secsInHour,"h") _ unit member ((consecutive_units _ _).mpr (.inr (.inl ⟨rfl,rfl⟩)))
      simp only [secsInHour,secsInMin] at bound
      omega
    · intro unit member
      have bound := bounded (secsInMin,"m") _ unit member ((consecutive_units _ _).mpr (.inr (.inr ⟨rfl,rfl⟩)))
      simp only [secsInMin,secsInSec] at bound
      omega

/-- The time is printed in canonical form exactly if it is not zero and not one of the units. -/
theorem canonicalTime_iff (seconds : Nat) :
    CanonicalTime seconds (prettyPrintTime seconds) ↔ seconds ∉ [0,1,60,3600,86400] := by
  rw [canonicalTime_canonical,prettyPrintTime,printUnits_off,canonical_iff timeUnits timeUnits_scale]
  have units : (∀ unit ∈ timeUnits, unit.1 ≠ seconds) ↔
      secsInDay ≠ seconds ∧ secsInHour ≠ seconds ∧ secsInMin ≠ seconds ∧ secsInSec ≠ seconds := by
    simp [timeUnits]
  rw [units]
  simp only [List.mem_cons,List.not_mem_nil,or_false,secsInDay,secsInHour,secsInMin,secsInSec]
  omega

theorem minute_printed : ¬ CanonicalTime 60 (prettyPrintTime 60) := by
  intro canonical
  have printed : prettyPrintTime 60 = [(60,secsInSec,"s")] := by decide
  rw [printed] at canonical
  exact absurd (canonical.secondsBelow 60 (List.mem_singleton_self _)) (by decide)

end Zofi.PrintedTime
