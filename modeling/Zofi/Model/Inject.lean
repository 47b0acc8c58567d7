import Zofi.Model.BitFlip
import Zofi.Model.Outcomes
import Zofi.Model.Wait

/-! Runner::stopChildAfter and Runner::tryInjectFaultAt: the child is stopped by a second
thread of the tool while the first one waits, and gets its fault. -/
namespace Zofi.Model.Inject
open Sys Utils WaitStatus RegManip BitFlip Outcomes Wait

variable {μ : Type}

structure Os (μ : Type) extends WaitCalls μ where
  /-- The std::thread that runs `sleepAndStopRandomChildThread`. -/
  sleepAndKillThread : Prog Halt (World μ) Unit
  /-- Its join(): the value it has left in KillSuccess. -/
  join : Prog Halt (World μ) Bool
  ptraceKill : Nat → Prog Halt (World μ) Bool
  kill : Nat → Nat → Prog Halt (World μ) Bool
  waitpid : Nat → Prog Halt (World μ) (Option (Nat × Nat))
  waitpidNoHang : Nat → Prog Halt (World μ) (Option Bool)
  tracee : Nat → Tracee (World μ)

def killSafe (os : Os μ) (pid sig : Nat) : Prog Halt (World μ) Unit := do
  if !(← os.kill pid sig) then
    throw (.die s!"killSafe() failed to kill {pid} with signal {sig}")

def cleanupWaitpidState (os : Os μ) (pid : Nat) : Nat → Prog Halt (World μ) Unit
  | 0 => throw .waiting
  | fuel + 1 => do
    match ← os.waitpidNoHang pid with
    | some false =>
      let _ ← waitpidSafe (os.waitpid pid)
      cleanupWaitpidState os pid fuel
    | _ => return ()

def stoppedBy (os : Os μ) (fuel status : Nat) : Prog Halt (World μ) Bool := do
  let childState ← getWaitPidExitState status
  match childState.type with
  | .exited => return false
  | .signaled =>
    let childPID := (← get).runner.childPID
    let _ ← os.ptraceKill childPID
    cleanupWaitpidState os childPID fuel
    return false
  | .stopped => return true
  | .invalid => throw (.die "Child Process should be in ptrace-stopped\n")

def stopChildAfter (os : Os μ) (fuel : Nat) : Prog Halt (World μ) Bool := do
  os.sleepAndKillThread
  let (_,status) ← waitpidSkipThreadState os.toWaitCalls fuel
  let killSuccess ← os.join
  if !killSuccess then return false
  stoppedBy os fuel status

def flipOrKill (os : Os μ) (cs : Capstone) (opts : Options) (garbage : AddrSpace.Scanned) (fuel : Nat)
    (stats : Statistics) : Prog Halt (World μ) (Bool × Statistics) := do
  let childPIDToInject := (← get).runner.childPIDToInject
  if ← doBitFlip (os.tracee childPIDToInject) cs opts garbage childPIDToInject then return (true,stats)
  let stats ← stats.incr .injFailed
  let childPID := (← get).runner.childPID
  killSafe os childPID sigKill
  cleanupWaitpidState os childPID fuel
  return (false,stats)

def tryInjectFaultAt (os : Os μ) (cs : Capstone) (opts : Options) (garbage : AddrSpace.Scanned) (fuel : Nat)
    (stats : Statistics) : Prog Halt (World μ) (Bool × Statistics) := do
  if !(← stopChildAfter os fuel) then return (false,← stats.incr .injFailed)
  flipOrKill os cs opts garbage fuel stats

end Zofi.Model.Inject
