import Zofi.Model.Utils

/-! The outcome counters of the campaign. An `unsigned long` counter is a number here: there are
fewer than 2^64 calls of incr(). -/
namespace Zofi.Model.Outcomes
open Utils

inductive FtStatus
  | none | masked | exception | infExec | corrupted | detected | injFailed | skipped
  deriving DecidableEq, Repr

inductive StatType
  | masked | exception | infExec | corrupted | detected | injFailed | skipped
  | origExecTime | testsExecTime | numTests | binary | injectTo | testRuns
  deriving DecidableEq, Repr

structure Statistics where
  uLongMap : StatType → Nat
  totalInjOK : Nat := 0
  grandTotal : Nat := 0

def Statistics.zero : Statistics := {uLongMap := fun _ => 0}

def isCounter : StatType → Bool
  | .masked | .exception | .infExec | .corrupted | .detected | .injFailed | .skipped => true
  | _ => false

def Statistics.incr (stats : Statistics) (s : StatType) : Except Halt Statistics :=
  if isCounter s then
    .ok {
      uLongMap := Function.update stats.uLongMap s (stats.uLongMap s + 1)
      totalInjOK := match s with
        | .injFailed | .skipped => stats.totalInjOK
        | _ => stats.totalInjOK + 1
      grandTotal := stats.grandTotal + 1 }
  else .error (.die "Bad type")

def counterOf : FtStatus → Option StatType
  | .none => .none
  | .masked => some .masked
  | .exception => some .exception
  | .infExec => some .infExec
  | .corrupted => some .corrupted
  | .detected => some .detected
  | .injFailed => some .injFailed
  | .skipped => some .skipped

/-- `incrStatsCounter`, for a variable that holds an enumerator or, read without ever
being written, some other value, which no case matches. -/
def incrStatsCounter (stats : Statistics) (status : Option FtStatus) : Except Halt Statistics :=
  match status with
  | none => .ok stats
  | some status =>
    match counterOf status with
    | some counter => stats.incr counter
    | none => .error (.assertion "Unreachable")

end Zofi.Model.Outcomes
