import Zofi.Lib.Sys
import Zofi.Model.WaitStatus
import Mathlib.Data.Finset.Sort

/-! RunnerBase::waitpidSkipThreadState and the set of the child's threads it maintains. -/
namespace Zofi.Model.Wait
open Sys Utils WaitStatus

structure RunnerBase where
  childPID : Nat
  childThreads : Finset Nat := ∅
  childPIDToInject : Nat := 0

structure World (μ : Type) where
  runner : RunnerBase
  outside : μ

variable {μ : Type}

/-- The calls of the loop. A call that can fail returns `none` or `false` for -1. -/
structure WaitCalls (μ : Type) where
  waitpidAny : Prog Halt (World μ) (Option (Nat × Nat))
  getEventMsg : Nat → Prog Halt (World μ) (Option Nat)
  cont : Nat → Prog Halt (World μ) Bool

def ptraceEventClone : Nat := 3

/-- `WIFSTOPPED(Status) && Status >> 8 == (SIGTRAP | (PTRACE_EVENT_CLONE << 8))` -/
def isCloneEvent (status : Nat) : Bool :=
  wIfStopped status && status >>> 8 == sigTrap ||| (ptraceEventClone <<< 8)

def ptraceSafe (request : Prog Halt (World μ) Bool) : Prog Halt (World μ) Unit := do
  if !(← request) then throw (.die "ptrace() failed.")

def modifyThreads (change : Finset Nat → Finset Nat) : Prog Halt (World μ) Unit :=
  modify fun w => {w with runner := {w.runner with childThreads := change w.runner.childThreads}}

def threadCreated (os : WaitCalls μ) (pidWaited : Nat) : Prog Halt (World μ) Unit := do
  match ← os.getEventMsg pidWaited with
  | none => throw (.die "ptrace() failed.")
  | some childThread =>
    modifyThreads (insert childThread)
    ptraceSafe (os.cont (← get).runner.childPID)

def threadStateChanged (os : WaitCalls μ) (pidWaited status : Nat) : Prog Halt (World μ) Bool := do
  if isCloneEvent status then
    threadCreated os pidWaited
    return true
  else if pidWaited ∈ (← get).runner.childThreads then
    if wIfStopped status && wStopSig status == sigStop then
      ptraceSafe (os.cont pidWaited)
      return true
    else if wIfExited status || wIfSignaled status then
      modifyThreads (·.erase pidWaited)
      return true
    else return false
  else return false

def waitpidSafe (call : Prog Halt (World μ) (Option (Nat × Nat))) : Prog Halt (World μ) (Nat × Nat) := do
  match ← call with
  | some data => return data
  | none => throw (.die "waitpid() failed")

def waitpidSkipThreadState (os : WaitCalls μ) : Nat → Prog Halt (World μ) (Nat × Nat)
  | 0 => throw .waiting
  | fuel + 1 => do
    let (pidWaited,status) ← waitpidSafe os.waitpidAny
    if ← threadStateChanged os pidWaited status then waitpidSkipThreadState os fuel
    else return (pidWaited,status)

def randSafe (max rand : Nat) : Nat := if max = 0 then rand else rand % max

/-- The loop over the active threads; the unsigned count is decremented behind each comparison. -/
def pickChildThread : List Nat → Nat → Except Halt Nat
  | [],_ => .error (.die "No child thread found")
  | childThreadPID :: rest,randomCnt =>
    if randomCnt = 0 then .ok childThreadPID else pickChildThread rest ((randomCnt + 2^32 - 1) % 2^32)

def getRandomChildThreadPID (runner : RunnerBase) (rand : Nat) : Except Halt Nat :=
  let randomCnt := randSafe ((runner.childThreads.card + 1) % 2^32) rand
  if randomCnt = 0 then .ok runner.childPID
  else pickChildThread (runner.childThreads.sort (· ≤ ·)) ((randomCnt + 2^32 - 1) % 2^32)

end Zofi.Model.Wait
