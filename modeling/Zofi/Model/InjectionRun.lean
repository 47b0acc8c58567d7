import Zofi.Model.TestRun

/-! Runner::runAndWait with the calls it makes: every attempt forks a child of its own, and the
last one is waited for. -/
namespace Zofi.Model.InjectionRun
open Sys Utils WaitStatus RegManip Outcomes Wait Inject TestRun

variable {μ : Type}

structure RunOs (μ : Type) extends Os μ where
  /-- fork() or forkpty(), in the parent; `none` is -1. -/
  fork : Prog Halt (World μ) (Option Nat)
  /-- PTRACE_SETOPTIONS with PTRACE_O_TRACECLONE. -/
  setOptions : Nat → Prog Halt (World μ) Bool

def run (os : RunOs μ) : Prog Halt (World μ) Bool := do
  modifyThreads fun _ => ∅
  match ← os.fork with
  | none => throw (.die "Error: fork() failed.")
  | some childPID =>
    modify fun w => {w with runner := {w.runner with childPID}}
    let _ ← waitpidSafe (os.waitpid childPID)
    if !(← os.setOptions childPID) then return false
    Wait.ptraceSafe (os.cont childPID)
    return true

structure Setup where
  options : RunAndWait.Options := {}
  settings : Settings := {}
  registers : RegManip.Options := {}
  cs : Capstone
  garbage : AddrSpace.Scanned
  disk : Disk
  orig : ExecutionExitState
  runner : Runner

def failedToInject (maxInjectionAttempts : Int) : String :=
  "Error: Failed to inject after " ++ toString maxInjectionAttempts ++ " attempts.\n" ++
    "Error: Is the execution time of the binary too short?\n" ++
    "Error: You may also try increasing -max-injection-attempts (currently set to " ++
    toString maxInjectionAttempts ++ ").\n"

def attempt (os : RunOs μ) (setup : Setup) (fuel : Nat) (stats : Statistics) :
    Prog Halt (World μ) (Bool × Statistics) := do
  if !(← run os) then return (false,stats)
  if setup.options.injectionsPerRun = 0 then return (false,stats)
  tryInjectFaultAt os.toOs setup.cs setup.registers setup.garbage fuel stats

/-- The loop behind a `--Attempts` that has left this value. -/
def attemptLoop (os : RunOs μ) (setup : Setup) (fuel : Nat) : Nat → Statistics → Prog Halt (World μ) Statistics
  | 0,_ => throw (.userDie (failedToInject setup.options.maxInjectionAttempts))
  | attempts + 1,stats => do
    let (injectOK,stats) ← attempt os setup fuel stats
    if !injectOK && decide (setup.options.injectionsPerRun > 0) then attemptLoop os setup fuel attempts stats
    else return stats

def runFrom (os : RunOs μ) (setup : Setup) (fuel attempts : Nat) (stats : Statistics) :
    Prog Halt (World μ) (FtStatus × Statistics) := do
  let stats ← attemptLoop os setup fuel attempts stats
  let status ← finishRun os.toOs setup.settings setup.disk setup.orig fuel setup.runner
  return (status,stats)

def runAndWait (os : RunOs μ) (setup : Setup) (fuel : Nat) (stats : Statistics) :
    Prog Halt (World μ) (FtStatus × Statistics) :=
  runFrom os setup fuel (RunAndWait.firstAttempts setup.options) stats

/-! The original run, and the jobs of both schedulers. -/

def OrigRunner.runAndWait (os : RunOs μ) (fuel : Nat) (exState : ExecutionExitState) :
    Prog Halt (World μ) ExecutionExitState := do
  if !(← run os) then
    throw (.userDie "Workload runs for a very short time. Cannot inject errors to it.")
  let (_,status) ← waitpidSkipThreadState os.toWaitCalls fuel
  return {exState with state := ← getWaitPidExitState status}

/-- The `childJobCode` of either scheduler and the exit(0) behind it, for what the job sends. -/
def childJobEnd {R : Type} : Except Halt R → Option (Threads.JobEnd R)
  | .ok sent => some ⟨some sent,.exited exitSuccess⟩
  | .error (.userDie _) => some ⟨none,.exited exitFailure⟩
  | .error (.die _) | .error (.assertion _) | .error (.undefined _) => some ⟨none,.signaled Signal.abrt false⟩
  | .error .waiting => none

end Zofi.Model.InjectionRun
