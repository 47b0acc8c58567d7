import Zofi.Model.OptionsParser

/-! The options of optionsList.cpp, OptionsParser::parse, which fills them from argv, and the
argument vector that RunnerBase makes of two of them. -/
namespace Zofi.Model.Options
open Sys Utils OptionsParser

inductive Opt
  | injectTo | forceInjectToReg | forceInjectToBit | binary | args | injectionsPerRun | userInjectionTime
  | maxInjectionAttempts | testRuns | jobs | binExecTime | binExecTimeOvershoot | infExecTimeoutMul | infExecTimeoutBase
  | diffCmd | diffShell | diffDisableRedirect | helpOption | version | noRedirect | stdout | stderr | verboseLevel
  | noProgressBar | dontInjectToLibs | noCleanup | detectionExitCode | outCsvFile | outMoufoplotDir | setOrigExitState
  | disableTimingRun
  deriving DecidableEq, Repr

/-- The type of an option's value; `chars` is `const char *` and `words` is `const char **`. -/
inductive OptType
  | int | unsigned | unsignedLong | bool | chars | string | double | words
  deriving DecidableEq, Repr

def OptType.needsValue : OptType → Bool
  | .bool => false
  | _ => true

/-- `none` is the null pointer. -/
inductive Value (ρ : Type)
  | int (value : Int)
  | unsigned (value : Nat)
  | unsignedLong (value : Nat)
  | bool (value : Bool)
  | chars (value : Option String)
  | string (value : String)
  | double (value : ρ)
  | words (value : Option (List String))

namespace Opt

def flag : Opt → String
  | injectTo => "-inject-to"
  | forceInjectToReg => "-force-inject-to-reg"
  | forceInjectToBit => "-force-inject-to-bit"
  | binary => "-bin"
  | args => "-args"
  | injectionsPerRun => "-injections-per-run"
  | userInjectionTime => "-injection-time"
  | maxInjectionAttempts => "-max-injection-attempts"
  | testRuns => "-test-runs"
  | jobs => "-j"
  | binExecTime => "-bin-exec-time"
  | binExecTimeOvershoot => "-bin-exec-time-overshoot"
  | infExecTimeoutMul => "-inf-exec-timeout-mul"
  | infExecTimeoutBase => "-inf-exec-timeout-base"
  | diffCmd => "-diff-cmd"
  | diffShell => "-diff-shell"
  | diffDisableRedirect => "-diff-disable-redirect"
  | helpOption => "-help"
  | version => "-version"
  | noRedirect => "-no-redirect"
  | stdout => "-stdout-path"
  | stderr => "-stderr-path"
  | verboseLevel => "-v"
  | noProgressBar => "-no-progress-bar"
  | dontInjectToLibs => "-no-inject-to-libs"
  | noCleanup => "-no-cleanup"
  | detectionExitCode => "-detection-exit-code"
  | outCsvFile => "-out-csv"
  | outMoufoplotDir => "-out-moufoplot"
  | setOrigExitState => "-set-orig-exit-state"
  | disableTimingRun => "-disable-timing-run"

def type : Opt → OptType
  | injectTo | forceInjectToReg | forceInjectToBit | diffCmd | stdout | stderr => .string
  | binary | diffShell | outCsvFile | outMoufoplotDir | setOrigExitState => .chars
  | args => .words
  | injectionsPerRun | testRuns | jobs => .unsigned
  | infExecTimeoutMul => .unsignedLong
  | maxInjectionAttempts | verboseLevel | detectionExitCode => .int
  | userInjectionTime | binExecTime | binExecTimeOvershoot | infExecTimeoutBase => .double
  | diffDisableRedirect | helpOption | version | noRedirect | noProgressBar | dontInjectToLibs | noCleanup
  | disableTimingRun => .bool

end Opt

variable {ρ : Type}

/-- A floating constant is what strtod() reads in its text. -/
def Opt.initVal (strtod : List Char → ρ × List Char) : Opt → Value ρ
  | .injectTo => .string "rwe"
  | .forceInjectToReg | .forceInjectToBit | .diffCmd => .string ""
  | .stdout => .string "/tmp/zofi.Stdout"
  | .stderr => .string "/tmp/zofi.Stderr"
  | .binary | .outCsvFile | .outMoufoplotDir | .setOrigExitState => .chars none
  | .diffShell => .chars (some "/bin/bash")
  | .args => .words none
  | .injectionsPerRun | .testRuns | .jobs => .unsigned 1
  | .infExecTimeoutMul => .unsignedLong 4
  | .maxInjectionAttempts => .int 100
  | .verboseLevel => .int 1
  | .detectionExitCode => .int 0
  | .userInjectionTime | .binExecTime => .double (strtod "0.0".toList).1
  | .binExecTimeOvershoot => .double (strtod "1.1".toList).1
  | .infExecTimeoutBase => .double (strtod "0.3".toList).1
  | .diffDisableRedirect | .helpOption | .version | .noRedirect | .noProgressBar | .dontInjectToLibs | .noCleanup
  | .disableTimingRun => .bool false

def registered : List Opt := [
  .injectTo,.forceInjectToReg,.forceInjectToBit,.binary,.args,.injectionsPerRun,.userInjectionTime,
  .maxInjectionAttempts,.testRuns,.jobs,.binExecTime,.binExecTimeOvershoot,.infExecTimeoutMul,.infExecTimeoutBase,
  .diffCmd,.diffShell,.diffDisableRedirect,.helpOption,.version,.noRedirect,.stdout,.stderr,.verboseLevel,
  .noProgressBar,.dontInjectToLibs,.noCleanup,.detectionExitCode,.outCsvFile,.outMoufoplotDir,.setOrigExitState,
  .disableTimingRun]

/-- A flag that is registered again finds the later option. -/
def addOption (map : List (String × Opt)) (opt : Opt) : List (String × Opt) := (opt.flag,opt) :: map

def optionsMap : List (String × Opt) := registered.foldl addOption []

/-- `strtoul(Str, &EndPtr, 10)`: a sign negates the unsigned number. -/
def strtoul (text : List Char) : Nat × List Char :=
  let body := text.dropWhile isSpace
  let (negative,digits) := match body with
    | '-' :: rest => (true,rest)
    | '+' :: rest => (false,rest)
    | rest => (false,rest)
  let run := digits.takeWhile Char.isDigit
  if run.isEmpty then (0,text)
  else
    let magnitude := run.foldl (fun value c => 10 * value + (c.toNat - '0'.toNat)) 0
    let value := if 2^64 ≤ magnitude then 2^64 - 1 else if negative then (2^64 - magnitude) % 2^64 else magnitude
    (value,digits.dropWhile Char.isDigit)

def convertSafe {α : Type} (convert : List Char → α × List Char) (text : String) : Except Halt α :=
  let (value,rest) := convert text.toList
  if text.toList = [] ∨ rest ≠ [] then .error (.userDie ("Bad number: " ++ text)) else .ok value

def strtoulSafe (text : String) : Except Halt Nat := convertSafe strtoul text

def strtodSafe (strtod : List Char → ρ × List Char) (text : String) : Except Halt ρ := convertSafe strtod text

/-- The specialisations of `getValForStr`: the one for `const char **` would be the address of its
own parameter. -/
def getValForStr (strtod : List Char → ρ × List Char) (str : String) : OptType → Except Halt (Value ρ)
  | .int => do return .int ((← strtolSafe str).bmod (2^32))
  | .unsigned => do return .unsigned ((← strtoulSafe str) % 2^32)
  | .unsignedLong => do return .unsignedLong (← strtoulSafe str)
  | .bool => do return .bool (decide ((← strtolSafe str) ≠ 0))
  | .chars => return .chars (some str)
  | .string => return .string str
  | .double => do return .double (← strtodSafe strtod str)
  | .words => .error (.undefined "address of a parameter")

/-- The integer types of options; no registered option is of type `long`. -/
inductive NumberType
  | int | unsigned | long | unsignedLong
  deriving DecidableEq, Repr

def NumberType.getValForStr (str : String) : NumberType → Except Halt Int
  | .int => do return (← strtolSafe str).bmod (2^32)
  | .unsigned => do return (((← strtoulSafe str) % 2^32 : Nat) : Int)
  | .long => strtolSafe str
  | .unsignedLong => do return ((← strtoulSafe str : Nat) : Int)

structure NumberOption where
  val : Int
  isSet : Bool := false
  deriving DecidableEq, Repr

def NumberOption.setValueFromStr (type : NumberType) (strVal : String) (opt : NumberOption) :
    Except Halt NumberOption := do
  return {opt with val := ← type.getValForStr strVal,isSet := true}

structure Setting (ρ : Type) where
  val : Value ρ
  isSet : Bool := false

abbrev Store (ρ : Type) := Opt → Setting ρ

def initial (strtod : List Char → ρ × List Char) : Store ρ := fun opt => {val := opt.initVal strtod}

def setValue (opt : Opt) (value : Value ρ) : Prog Halt (Store ρ) Unit :=
  modify fun store => Function.update store opt ⟨value,true⟩

def setValueFromStr (strtod : List Char → ρ × List Char) (opt : Opt) (strVal : String) : Prog Halt (Store ρ) Unit := do
  setValue opt (← getValForStr strtod strVal opt.type)

def parseWords (strtod : List Char → ρ × List Char) : List String → Prog Halt (Store ρ) Unit
  | [] => return ()
  | arg :: rest =>
    match optionsMap.lookup arg with
    | none => throw (.userDie ("\nError: Argument " ++ arg ++ " not supported."))
    | some opt =>
      if opt = .args then setValue opt (.words (some rest))
      else if opt.type.needsValue then
        match rest with
        | [] => throw (.userDie ("Error: " ++ opt.flag ++ " requires a value argument."))
        | strVal :: rest => do
          setValueFromStr strtod opt strVal
          parseWords strtod rest
      else do
        setValueFromStr strtod opt "1"
        parseWords strtod rest

def givenString (store : Store ρ) (opt : Opt) : Option String :=
  match store opt with
  | ⟨.string value,true⟩ => some value
  | _ => none

def commandLine (store : Store ρ) : CommandLine where
  injectTo := givenString store .injectTo
  forceInjectToReg := givenString store .forceInjectToReg
  forceInjectToBit := givenString store .forceInjectToBit
  dontInjectToLibs := (store .dontInjectToLibs).isSet

/-- The lists it prints first are left out. -/
def helpMessages (line : CommandLine) : Except Halt Unit := do
  userDieIf (line.forceInjectToReg == some "help") ""
  userDieIf (line.forceInjectToBit == some "help") ""

def parse (strtod : List Char → ρ × List Char) (argv : List String) : Prog Halt (Store ρ) Unit := do
  parseWords strtod argv.tail
  let store ← get
  sanityChecks (commandLine store)
  helpMessages (commandLine store)

def binaryPath (store : Store ρ) : Option String :=
  match (store .binary).val with
  | .chars path => path
  | _ => none

def binaryArgs (store : Store ρ) : List String :=
  match store .args with
  | ⟨.words (some words),true⟩ => words
  | _ => []

def runnerArgv (store : Store ρ) : List (Option String) := binaryPath store :: (binaryArgs store).map some ++ [none]

end Zofi.Model.Options
