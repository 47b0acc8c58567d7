import Zofi.Model.AddrSpace
import Zofi.Model.Main
import Zofi.Model.OptionsParser

/-! ExecutionExitState::import, and what main() does between the original runs and the test
runs. A character of a text stands for one byte, so a width counts characters. -/
namespace Zofi.Model.ExitState
open Utils WaitStatus AddrSpace Threads TestRun OptionsParser

def fnameSz : Nat := 4096

def maxTySz : Nat := 10

/-- `%<size>[^<stop>]` into a buffer of that size, which has no room for the terminator behind a
run of full width. -/
def scanBuffer (size : Nat) (stop : Char) (text : List Char) : Except Halt (Option (List Char × List Char)) :=
  let run := (text.takeWhile (· ≠ stop)).take size
  if run.isEmpty then .ok none
  else if run.length = size then .error (.undefined "write behind the buffer")
  else .ok (some (run,text.drop run.length))

def scanSet (width : Nat) (stop : Char) (text : List Char) : Option (List Char × List Char) :=
  let run := (text.takeWhile (· ≠ stop)).take width
  if run.isEmpty then none else some (run,text.drop run.length)

/-- The bounded conversions of `"%4096[^,],%4096[^,],%10[^:]:%d"`: the size of the array, which is the width too, and
the character that is excluded and has to follow. -/
def format : List (Nat × Char) := [(fnameSz,','),(fnameSz,','),(maxTySz,':')]

def stores : List (Nat × Char) → List Char → List (Nat × List Char)
  | [],_ => []
  | (size,stop) :: conversions,text =>
    match scanSet size stop text with
    | none => []
    | some (run,rest) => (size,run) :: ((scanChar stop rest).map (stores conversions)).getD []

def scanInt (text : List Char) : Except Halt (Option Int) :=
  match scanLong text with
  | none => .ok none
  | some (value,_) =>
    if -2^31 ≤ value ∧ value < 2^31 then .ok (some value) else .error (.undefined "the value does not fit an int")

/-- `sscanf(Str, "%4096[^,],%4096[^,],%10[^:]:%d", ..)`: `none` unless Cnt is 4. -/
def scanArgument (text : List Char) : OptionT (Except Halt) (List Char × List Char × List Char × Int) := do
  let (stdoutFile,rest) ← OptionT.mk (scanBuffer fnameSz ',' text)
  let rest ← OptionT.mk (pure (scanChar ',' rest))
  let (stderrFile,rest) ← OptionT.mk (scanBuffer fnameSz ',' rest)
  let rest ← OptionT.mk (pure (scanChar ',' rest))
  let (exitTypeStr,rest) ← OptionT.mk (scanBuffer maxTySz ':' rest)
  let rest ← OptionT.mk (pure (scanChar ':' rest))
  let val ← OptionT.mk (scanInt rest)
  return (stdoutFile,stderrFile,exitTypeStr,val)

/-- `ExitState::import`; the value is kept as the unsigned number of the same bits. -/
def importState (typeStr : String) (v : Int) : Except Halt ExitState :=
  if typeStr = "exited" ∨ typeStr = "EXITED" ∨ typeStr = "Exited" then .ok ⟨.exited,toUnsigned v⟩
  else if typeStr = "signaled" ∨ typeStr = "SIGNALED" ∨ typeStr = "Signaled" then .ok ⟨.signaled,toUnsigned v⟩
  else .error (.die ("Invalid Exit Type:" ++ typeStr))

def checkFile (fileExists : String → Bool) (file : String) : Except Halt Unit :=
  if fileExists file then .ok () else .error (.userDie ("File " ++ file ++ " does not exist."))

/-- `ExecutionExitState::import`; errno is what an earlier call has left there. -/
def importArgument (errno : Int) (fileExists : String → Bool) (exState : ExecutionExitState) (str : String) :
    Except Halt ExecutionExitState := do
  match (← (scanArgument str.toList).run).filter fun _ => errno = 0 with
  | none => .error (.userDie ("Bad exit state argument: " ++ str ++ "."))
  | some (stdoutFile,stderrFile,exitTypeStr,val) =>
    let stdoutFile := String.ofList stdoutFile
    let stderrFile := String.ofList stderrFile
    checkFile fileExists stdoutFile
    checkFile fileExists stderrFile
    return {exState with stdoutFile,stderrFile,state := ← importState (String.ofList exitTypeStr) val}

structure Arguments where
  disableTimingRun : Bool := false
  binExecTime : Bool := false
  setOrigExitState : Option String := none
  jobs : Nat := 1
  testRuns : Nat := 1
  deriving DecidableEq, Repr

def namedFiles (str : String) : String × String :=
  match (scanArgument str.toList).run with
  | .ok (some (stdoutFile,stderrFile,_)) => (String.ofList stdoutFile,String.ofList stderrFile)
  | _ => ("","")

def Arguments.options (args : Arguments) : Main.Options where
  disableTimingRun := args.disableTimingRun
  binExecTime := args.binExecTime
  setOrigExitState := args.setOrigExitState.map namedFiles
  jobs := args.jobs
  testRuns := args.testRuns

/-- Whether `BinExecTime.isSet()` behind the original runs, which set it. -/
def Arguments.timed (args : Arguments) : Bool := args.binExecTime || args.options.runsOriginal

def prepare (args : Arguments) (errno : Int) (fileExists : String → Bool) (origState : ExecutionExitState) :
    Except Halt ExecutionExitState := do
  userDieIf (!args.timed && args.testRuns != 0)
    "No orig execution time available. Either remove -disable-timing-run, or set the -bin-exec-time\n"
  let origState ← (match args.setOrigExitState with
    | some str => importArgument errno fileExists origState str
    | none => .ok origState)
  assert args.timed "Expected orig exec time."
  return origState

/-- What the process of an original run sends: the descriptors are those of mkstempSafe(). -/
structure Sent where
  state : ExitState
  stdoutFd : Nat
  stderrFd : Nat
  stdoutFile : String
  stderrFile : String

def Sent.exState (sent : Sent) : ExecutionExitState :=
  ⟨sent.state,sent.stdoutFd,sent.stderrFd,sent.stdoutFile,sent.stderrFile⟩

def sends (job : JobEnd Sent) : JobEnd ExecutionExitState := ⟨job.wrote.map Sent.exState,job.ending⟩

example : importArgument 0 (fun _ => true) {} "/dev/null,err,exited:66" =
    .ok {state := ⟨.exited,66⟩,stdoutFile := "/dev/null",stderrFile := "err"} := by decide

end Zofi.Model.ExitState
