import Mathlib.Data.List.Sort
import Zofi.Model.DiffCmd
import Zofi.Model.ExitState
import Zofi.Model.Options
import Zofi.Model.Printing
import Zofi.Model.StatisticsObject

/-! OptionsParser::init, which main() starts with, and what main() does with the options behind it: it prints
them and hands them on. -/
namespace Zofi.Model.Startup
open Sys Utils OptionsParser Options

/-- What the program finds: hardware_concurrency(), which may be 0, and the files there are. -/
structure Machine where
  hwThreads : Nat
  fits : hwThreads < 2^32
  fileExists : String → Bool

variable {ρ : Type}

def unsignedOf (store : Store ρ) (opt : Opt) : Nat :=
  match (store opt).val with
  | .unsigned value => value
  | _ => 0

def intOf (store : Store ρ) (opt : Opt) : Int :=
  match (store opt).val with
  | .int value => value
  | _ => 0

def boolOf (store : Store ρ) (opt : Opt) : Bool :=
  match (store opt).val with
  | .bool value => value
  | _ => false

def charsOf (store : Store ρ) (opt : Opt) : Option String :=
  match (store opt).val with
  | .chars value => value
  | _ => none

def stringOf (store : Store ρ) (opt : Opt) : String :=
  match (store opt).val with
  | .string value => value
  | _ => ""

def dieIf (condition : Bool) (message : String) : Prog Halt (Store ρ) Unit := liftM (userDieIf condition message)

def limitJobs (machine : Machine) : Prog Halt (Store ρ) Unit := do
  if unsignedOf (← get) .jobs = 0 then setValue .jobs (.unsigned machine.hwThreads)
  if machine.hwThreads < unsignedOf (← get) .jobs then setValue .jobs (.unsigned machine.hwThreads)

def checkDirectory (machine : Machine) (store : Store ρ) : Prog Halt (Store ρ) Unit :=
  match charsOf store .outMoufoplotDir with
  | some dir => dieIf ((store .outMoufoplotDir).isSet && !machine.fileExists dir) ("Directory " ++ dir ++ " does not exist.")
  | none => return ()

/-- Whether main() goes on; the version and the usage are printed before the program exits. -/
def init (machine : Machine) (strtod : List Char → ρ × List Char) (argv : List String) : Prog Halt (Store ρ) Bool := do
  parse strtod argv
  let store ← get
  if (store .version).isSet then return false
  if boolOf store .helpOption then return false
  match binaryPath store with
  | none => throw (.userDie "Error: Missing -bin. It is a required argument!")
  | some binary =>
    dieIf (decide (0 < intOf store .detectionExitCode) && decide (125 < intOf store .detectionExitCode))
      "Please use a value in the range 0-125 for the exit code."
    limitJobs machine
    checkDirectory machine store
    dieIf (decide (1 < unsignedOf store .injectionsPerRun)) "We only support 0 or 1 injections per run"
    dieIf (!machine.fileExists binary) ("Cannot find " ++ binary ++ " file")
    return true

/-! What the rest of main() takes from the options. -/

def argumentsOf (store : Store ρ) : ExitState.Arguments where
  disableTimingRun := boolOf store .disableTimingRun
  binExecTime := (store .binExecTime).isSet
  setOrigExitState := if (store .setOrigExitState).isSet then charsOf store .setOrigExitState else none
  jobs := unsignedOf store .jobs
  testRuns := unsignedOf store .testRuns

def statisticsOptions (store : Store ρ) : StatisticsObject.Options where
  binary := (charsOf store .binary).getD ""
  injectTo := stringOf store .injectTo
  testRuns := unsignedOf store .testRuns
  outMoufoplotDir := (charsOf store .outMoufoplotDir).getD ""

def outCsvFileOf (store : Store ρ) : Option String :=
  if (store .outCsvFile).isSet then charsOf store .outCsvFile else none

def runOptions (store : Store ρ) : RunAndWait.Options where
  noRedirect := boolOf store .noRedirect
  injectionsPerRun := unsignedOf store .injectionsPerRun
  maxInjectionAttempts := intOf store .maxInjectionAttempts

def settingsOf (store : Store ρ) (shells : DiffCmd.Shells) (fuel : Nat) : TestRun.Settings where
  noRedirect := boolOf store .noRedirect
  detectionExitCode := intOf store .detectionExitCode
  diffCmd := (givenString store .diffCmd).map fun diffCmd =>
    DiffCmd.userDiff shells (boolOf store .diffDisableRedirect) fuel diffCmd ((charsOf store .diffShell).getD "")

/-! getValuesStr() -/

/-- `OS << Val`; no option is set to the null pointer. -/
def valueText (showDouble : ρ → String) : Value ρ → List Char
  | .int value => if value < 0 then '-' :: Nat.toDigits 10 value.natAbs else Nat.toDigits 10 value.natAbs
  | .unsigned value | .unsignedLong value => Nat.toDigits 10 value
  | .bool value => if value then ['1'] else ['0']
  | .chars value => (value.getD "").toList
  | .string value => value.toList
  | .double value => (showDouble value).toList
  | .words value => (value.getD []).flatMap fun word => word.toList ++ [' ']

def dumpOption (showDouble : ρ → String) (flag : String) (setting : Setting ρ) : List Char :=
  if setting.isSet then
    ' ' :: (Printing.setwLeft 22 flag.toList ++ (" = ".toList ++ (valueText showDouble setting.val ++ ['\n'])))
  else []

def flagLess : List Char → List Char → Bool
  | _,[] => false
  | [],_ :: _ => true
  | c :: one,d :: other => c.toNat < d.toNat || (c.toNat == d.toNat && flagLess one other)

def mapOrder : List Opt := registered.insertionSort fun one other => flagLess other.flag.toList one.flag.toList = false

def getValuesStr (showDouble : ρ → String) (store : Store ρ) : List Char :=
  mapOrder.flatMap fun opt => dumpOption showDouble opt.flag (store opt)

end Zofi.Model.Startup
