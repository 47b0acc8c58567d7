import Zofi.Model.Inject

/-! A killed process whose state changes queue up for waitpid(), in any number and at any time. -/
namespace Zofi.Semantics.StateChanges
open Sys Model.Utils Model.WaitStatus Model.RegManip Model.Wait Model.Inject

inductive Changes
  | left (stops : List Signal) (ending : Ending)
  | reaped
  deriving DecidableEq

def Changes.next : Changes → Option (Nat × Changes)
  | .left (signal :: stops) ending => some (stoppedStatus signal,.left stops ending)
  | .left [] ending => some (ending.status,.reaped)
  | .reaped => none

/-- How many changes have happened, and how many more do before each of the calls to come. -/
structure Process where
  pid : Nat
  changes : Changes
  pending : Nat := 0
  arrivals : Nat → Nat

namespace Process

def come (process : Process) : Process :=
  {process with pending := process.pending + process.arrivals 0,arrivals := fun n => process.arrivals (n + 1)}

def consume (process : Process) (changes : Changes) : Process :=
  {process with changes,pending := process.pending - 1}

/-- With WNOHANG: 0 is `some false`, the pid is `some true` and -1 is `none`. -/
def poll (process : Process) : Option Bool × Process :=
  match process.changes.next with
  | none => (none,process.come)
  | some (_,changes) =>
    if process.come.pending = 0 then (some false,process.come) else (some true,process.come.consume changes)

def wait (process : Process) : Option Nat × Process :=
  match process.changes.next with
  | none => (none,process.come)
  | some (status,changes) => (some status,process.come.consume changes)

end Process

variable {α : Type}

def ask (call : Process → α × Process) : Prog Halt (World Process) α := do
  let w ← get
  set {w with outside := (call w.outside).2}
  return (call w.outside).1

def askAbout (pid : Nat) (call : Process → α × Process) (other : Prog Halt (World Process) α) :
    Prog Halt (World Process) α := do
  if pid = (← get).outside.pid then ask call else other

def report (process : Process) : Option (Nat × Nat) × Process :=
  (process.wait.1.map fun status => (process.pid,status),process.wait.2)

def os (other : Os Process) : Os Process where
  waitpidAny := ask report
  getEventMsg := other.getEventMsg
  cont := other.cont
  sleepAndKillThread := other.sleepAndKillThread
  join := other.join
  ptraceKill := other.ptraceKill
  kill := other.kill
  waitpid pid := askAbout pid report (other.waitpid pid)
  waitpidNoHang pid := askAbout pid Process.poll (other.waitpidNoHang pid)
  tracee := other.tracee

def blocked : Os Process where
  waitpidAny := throw .waiting
  getEventMsg _ := throw .waiting
  cont _ := throw .waiting
  sleepAndKillThread := throw .waiting
  join := throw .waiting
  ptraceKill _ := throw .waiting
  kill _ _ := throw .waiting
  waitpid _ := throw .waiting
  waitpidNoHang _ := throw .waiting
  tracee _ := {
    getRegs := throw .waiting
    getRegSet := throw .waiting
    setRegs := fun _ => throw .waiting
    setRegSet := fun _ => throw .waiting
    peekText := fun _ => throw .waiting
    singleStep := throw .waiting
    waitpid := throw .waiting
    cont := throw .waiting
    maps := throw .waiting
    rand := throw .waiting }

end Zofi.Semantics.StateChanges
