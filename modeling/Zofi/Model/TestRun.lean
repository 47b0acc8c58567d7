import Zofi.Model.Inject
import Zofi.Model.RunAndWait
import Zofi.Model.Threads

/-! The end of a test run: Runner::waitChildAndGetStatus, the comparison with the original
run, and the job process around it. -/
namespace Zofi.Model.TestRun
open Sys Utils WaitStatus Outcomes Wait Inject Threads

structure ExecutionExitState where
  state : ExitState := {}
  stdoutFd : Int := -1
  stderrFd : Int := -1
  stdoutFile : String := ""
  stderrFile : String := ""
  deriving DecidableEq, Repr

def ExecutionExitState.isSet (s : ExecutionExitState) : Bool :=
  s.stdoutFd != -1 && s.stderrFd != -1 && s.state.isSet

/-- What reading a descriptor from its start delivers, and a file of this name; `none` where
it cannot be opened. -/
structure Disk where
  descriptor : Int → Option (List Byte)
  file : String → Option (List Byte)

def openSafe (disk : Disk) (file : String) : Except Halt (List Byte) :=
  match disk.file file with
  | some content => .ok content
  | none => .error (.die ("Failed to open " ++ file))

def fdopen (disk : Disk) (fd : Int) : Except Halt (List Byte) :=
  match disk.descriptor fd with
  | some content => .ok content
  | none => .error (.die ("Failed to open Fd1 " ++ toString fd))

/-- `operator==`: the files of the other run are opened by name, whatever the states are. -/
def ExecutionExitState.same (disk : Disk) (s other : ExecutionExitState) : Except Halt Bool := do
  let otherStdout ← openSafe disk other.stdoutFile
  let otherStderr ← openSafe disk other.stderrFile
  if s.state ≠ other.state then return false
  if !RunAndWait.defaultDiff (← fdopen disk s.stdoutFd) otherStdout then return false
  return RunAndWait.defaultDiff (← fdopen disk s.stderrFd) otherStderr

structure Settings where
  noRedirect : Bool := false
  detectionExitCode : Int := 0
  /-- The user's command, run by the shell on the files of the original and the test run:
  whether it exits with 0. -/
  diffCmd : Option (ExecutionExitState → ExecutionExitState → Except Halt Bool) := none

def checkOutput (settings : Settings) (disk : Disk) (orig test : ExecutionExitState) : Except Halt Bool :=
  if !orig.isSet then .error (.userDie "The exit state of the timing run is not set.")
  else if !test.state.isSet then .error (.userDie "The exit state of the test run is not set.")
  else match settings.diffCmd with
    | some diffCmd => diffCmd orig test
    | none => test.same disk orig

structure Runner where
  exState : ExecutionExitState
  skipCheck : Bool := false

variable {μ : Type}

def killChild (os : Os μ) (fuel : Nat) : Prog Halt (World μ) Unit := do
  let childPID := (← get).runner.childPID
  ptraceSafe (os.ptraceKill childPID)
  cleanupWaitpidState os childPID fuel

def classify (os : Os μ) (settings : Settings) (disk : Disk) (orig : ExecutionExitState) (fuel : Nat)
    (r : Runner) : Prog Halt (World μ) FtStatus := do
  let state := r.exState.state
  if r.skipCheck then
    if state.type ≠ .exited then killChild os fuel
    return .skipped
  match state.type with
  | .exited =>
    if settings.detectionExitCode > 0 ∧ state.val = settings.detectionExitCode then return .detected
    if ← checkOutput settings disk orig r.exState then return .masked else return .corrupted
  | .stopped =>
    if state.val = sigAlrm then
      killChild os fuel
      return .infExec
    if ← checkOutput settings disk orig r.exState then return .masked else return .exception
  | .signaled => throw (.assertion "Why terminated? Haven't we attached to it?")
  | .invalid => throw (.assertion "Unreachable: bad ExitState.Type")

def waitChildAndGetStatus (os : Os μ) (settings : Settings) (disk : Disk) (orig : ExecutionExitState)
    (fuel : Nat) (r : Runner) : Prog Halt (World μ) (FtStatus × Runner) := do
  let (_,waitStatus) ← waitpidSkipThreadState os.toWaitCalls fuel
  let exState := {r.exState with state := ← getWaitPidExitState waitStatus}
  let r : Runner := ⟨exState,if settings.noRedirect then true else r.skipCheck⟩
  let status ← classify os settings disk orig fuel r
  return (status,r)

/-- `runAndWait` behind its loop: whatever is left of the child is killed and reaped. -/
def finishRun (os : Os μ) (settings : Settings) (disk : Disk) (orig : ExecutionExitState) (fuel : Nat)
    (r : Runner) : Prog Halt (World μ) FtStatus := do
  let (faultInjectionStatus,_) ← waitChildAndGetStatus os settings disk orig fuel r
  let childPID := (← get).runner.childPID
  let _ ← os.ptraceKill childPID
  cleanupWaitpidState os childPID fuel
  return faultInjectionStatus

/-- `childJobCode` and the exit(0) behind it, as the parent sees them; `none` while the job
does not end. -/
def childJob : Except Halt FtStatus → Option (JobEnd FtStatus)
  | .ok status => some ⟨some status,.exited exitSuccess⟩
  | .error (.userDie _) => some ⟨none,.exited exitFailure⟩
  | .error (.die _) | .error (.assertion _) | .error (.undefined _) => some ⟨none,.signaled Signal.abrt false⟩
  | .error .waiting => none

end Zofi.Model.TestRun
