import Mathlib.Data.Rat.Defs
import Zofi.Model.Outcomes

/-! The Statistics object with the values that are not counters, and the files that it is dumped
to. -/
namespace Zofi.Model.StatisticsObject
open Utils Outcomes

structure Options where
  binary : String
  injectTo : String := "rwe"
  testRuns : Nat := 1
  outMoufoplotDir : String := ""

/-- `hasULong` are the keys of `ULongMap`. -/
structure Object (ρ : Type) where
  counts : Statistics := .zero
  hasULong : StatType → Bool := fun _ => false
  stringMap : StatType → Option String := fun _ => none
  doubleMap : StatType → Option ρ := fun _ => none

variable {ρ : Type}

namespace Object

def zero (object : Object ρ) : Object ρ :=
  {object with
    counts := {object.counts with uLongMap := fun s => if isCounter s then 0 else object.counts.uLongMap s }
    hasULong := fun s => isCounter s || object.hasULong s }

def putULong (object : Object ρ) (s : StatType) (val : Nat) : Object ρ :=
  {object with
    counts := {object.counts with uLongMap := Function.update object.counts.uLongMap s val }
    hasULong := Function.update object.hasULong s true }

def new (options : Options) : Object ρ :=
  let object := putULong (zero {}) .testRuns options.testRuns
  {object with
    stringMap := Function.update (Function.update object.stringMap .binary (some options.binary)) .injectTo
      (some options.injectTo)}

def incr (object : Object ρ) (s : StatType) : Except Halt (Object ρ) := do
  return {object with
    counts := ← object.counts.incr s
    hasULong := Function.update object.hasULong s true }

def setULong (object : Object ρ) (s : StatType) (val : Nat) : Except Halt (Object ρ) :=
  match s with
  | .numTests | .testRuns => .ok (object.putULong s val)
  | _ => .error (.die "Bad type")

def setDouble (object : Object ρ) (s : StatType) (val : ρ) : Except Halt (Object ρ) :=
  match s with
  | .origExecTime | .testsExecTime => .ok {object with doubleMap := Function.update object.doubleMap s (some val)}
  | _ => .error (.die "Bad type")

/-- `to_string` of a double is a parameter; a key that a map does not have ends the program. -/
def getStr (showDouble : ρ → String) (object : Object ρ) : StatType → Except Halt String
  | .origExecTime => (object.doubleMap .origExecTime).elim (.error (.die "map::at")) fun time => .ok (showDouble time)
  | .testsExecTime => (object.doubleMap .testsExecTime).elim (.error (.die "map::at")) fun time => .ok (showDouble time)
  | .binary => (object.stringMap .binary).elim (.error (.die "map::at")) .ok
  | .injectTo => (object.stringMap .injectTo).elim (.error (.die "map::at")) .ok
  | s => if object.hasULong s then .ok (toString (object.counts.uLongMap s)) else .error (.die "map::at")

/-- What dump() prints behind a counter, before it is rounded. -/
def share (object : Object ρ) (s : StatType) : ℚ := object.counts.uLongMap s * 100 / object.counts.totalInjOK

end Object

inductive Call (ρ : Type)
  | zero
  | incr (s : StatType)
  | setULong (s : StatType) (val : Nat)
  | setDouble (s : StatType) (val : ρ)

def Call.apply (object : Object ρ) : Call ρ → Except Halt (Object ρ)
  | zero => .ok object.zero
  | incr s => object.incr s
  | setULong s val => object.setULong s val
  | setDouble s val => object.setDouble s val

def run (object : Object ρ) (calls : List (Call ρ)) : Except Halt (Object ρ) := calls.foldlM Call.apply object

def getTypeStr : StatType → String
  | .masked => "Masked"
  | .exception => "Exception"
  | .infExec => "InfExec"
  | .corrupted => "Corrupted"
  | .detected => "Detected"
  | .injFailed => "InjectionFailed"
  | .skipped => "Skipped"
  | .origExecTime => "OrigExecTime"
  | .testsExecTime => "TestsExecTime"
  | .numTests => "NumTests"
  | .binary => "Binary"
  | .injectTo => "InjectTo"
  | .testRuns => "TestRuns"

def moufoplotStats : List StatType :=
  [.masked,.exception,.infExec,.corrupted,.origExecTime,.testsExecTime,.numTests]

def filePrefix (options : Options) : String :=
  options.binary ++ "_" ++ "InjectTo-" ++ options.injectTo ++ "_" ++ "TestRuns-" ++ toString options.testRuns

def filePath (options : Options) (stat : StatType) : String :=
  options.outMoufoplotDir ++ "/" ++ filePrefix options ++ "_" ++ getTypeStr stat

def dumpToMoufoplot (opens : String → Bool) (showDouble : ρ → String) (options : Options) (object : Object ρ) :
    Except Halt (List (String × String)) :=
  moufoplotStats.mapM fun stat => do
    if opens (filePath options stat) then return (filePath options stat,← object.getStr showDouble stat)
    else throw (.userDie ("Error opening file " ++ filePath options stat))

example : filePath {binary := "/bin/ls",outMoufoplotDir := "out"} .masked =
    "out//bin/ls_InjectTo-rwe_TestRuns-1_Masked" := by decide

end Zofi.Model.StatisticsObject
