import Zofi.Model.Utils

/-! The status word of waitpid() and the exit state the tool reads from it. -/
namespace Zofi.Model.WaitStatus
open Utils

def sigTrap : Nat := 5
def sigKill : Nat := 9
def sigAlrm : Nat := 14
def sigStop : Nat := 19

def wTermSig (status : Nat) : Nat := status &&& 0x7f
def wExitStatus (status : Nat) : Nat := (status &&& 0xff00) >>> 8
def wStopSig (status : Nat) : Nat := wExitStatus status
def wIfExited (status : Nat) : Bool := wTermSig status == 0
/-- `((signed char)((status & 0x7f) + 1) >> 1) > 0` -/
def wIfSignaled (status : Nat) : Bool := wTermSig status != 0 && wTermSig status != 0x7f
def wIfStopped (status : Nat) : Bool := status &&& 0xff == 0x7f

inductive ExitType
  | invalid | exited | signaled | stopped
  deriving DecidableEq, Repr

structure ExitState where
  type : ExitType := .invalid
  val : Nat := 666
  deriving DecidableEq, Repr

def ExitState.isSet (state : ExitState) : Bool := state.type != .invalid

def getWaitPidExitState (status : Nat) : Except Halt ExitState :=
  if wIfExited status then .ok ⟨.exited,wExitStatus status⟩
  else if wIfSignaled status then .ok ⟨.signaled,wTermSig status⟩
  else if wIfStopped status then .ok ⟨.stopped,wStopSig status⟩
  else .error (.die "getWaitPidExitState(): Unreachable")

theorem stopped_not_ended (status : Nat) (stopped : wIfStopped status = true) :
    wIfExited status = false ∧ wIfSignaled status = false := by
  have low : status &&& 0xff = 0x7f := by simpa [wIfStopped] using stopped
  have term : wTermSig status = 0x7f := by
    calc wTermSig status = (status &&& 0xff) &&& 0x7f := by rw [Nat.and_assoc]; rfl
      _ = 0x7f := by rw [low]; rfl
  simp [wIfExited,wIfSignaled,term]

/-! The statuses the kernel reports: of a process that has ended, and of a stop. -/

abbrev Signal := {number : Nat // 0 < number ∧ number ≤ 64}

def Signal.kill : Signal := ⟨sigKill,by decide⟩
def Signal.segv : Signal := ⟨11,by decide⟩
def Signal.abrt : Signal := ⟨6,by decide⟩
def Signal.alrm : Signal := ⟨sigAlrm,by decide⟩

def exitSuccess : Fin 256 := 0
def exitFailure : Fin 256 := 1

inductive Ending
  | exited (code : Fin 256)
  | signaled (signal : Signal) (core : Bool)
  deriving DecidableEq

def Ending.status : Ending → Nat
  | .exited code => code.val <<< 8
  | .signaled signal core => signal.val ||| (if core then 0x80 else 0)

def stoppedStatus (signal : Nat) : Nat := signal <<< 8 ||| 0x7f

theorem exited_status (code : Fin 256) :
    getWaitPidExitState (Ending.exited code).status = .ok ⟨.exited,code⟩ := by
  revert code
  decide +kernel

theorem signaled_status (signal : Signal) (core : Bool) :
    getWaitPidExitState (Ending.signaled signal core).status = .ok ⟨.signaled,signal⟩ := by
  obtain ⟨number,low,high⟩ := signal
  have all : ∀ number : Fin 65, 0 < number.val → ∀ core : Bool,
      getWaitPidExitState (number.val ||| (if core then 0x80 else 0)) = .ok ⟨.signaled,number.val⟩ := by
    decide +kernel
  exact all ⟨number,by omega⟩ low core

theorem stopped_status (signal : Signal) :
    getWaitPidExitState (stoppedStatus signal) = .ok ⟨.stopped,signal⟩ := by
  obtain ⟨number,low,high⟩ := signal
  have all : ∀ number : Fin 65, getWaitPidExitState (stoppedStatus number) = .ok ⟨.stopped,number.val⟩ := by
    decide +kernel
  exact all ⟨number,by omega⟩

end Zofi.Model.WaitStatus
