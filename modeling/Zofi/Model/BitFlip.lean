import Zofi.Model.AddrSpace
import Zofi.Model.WaitStatus
import Zofi.Model.RegManip

/-! Runner::doBitFlip: the injection into the stopped thread. -/
namespace Zofi.Model.BitFlip
open Utils AddrSpace WaitStatus RegManip Sys

variable {σ : Type}

def waitpidSafe (wait : Prog Halt σ (Option Nat)) : Prog Halt σ Nat := do
  match ← wait with
  | some status => return status
  | none => fail (.die "waitpid() failed")

def addressSpace (T : Tracee σ) (garbage : Scanned) : Prog Halt σ MappingsSet := do
  match ← T.maps with
  | some text => parse garbage text
  | none => fail (.die "Failed to open maps file")

def skipsLibrary (opts : Options) (childAS : MappingsSet) (ip : BitVec 64) : Except Halt Bool :=
  if opts.dontInjectToLibs then isInLibrary childAS ip.toNat else .ok false

/-- The step to the next instruction; `false` if the alarm went off. -/
def stepToNext (T : Tracee σ) : Prog Halt σ Bool := do
  ptraceSafe T.singleStep
  let state ← getWaitPidExitState (← waitpidSafe T.waitpid)
  if state.type = .stopped ∧ state.val = sigAlrm then return false
  assert (state.type = .stopped ∧ state.val = sigTrap)
    "SingleStep should stop the program with a SIGTRAP."
  return true

def stepIfWritten (T : Tracee σ) (reg : RegDescr) : Prog Halt σ Bool :=
  if reg.written then stepToNext T else return true

def flipSelected (T : Tracee σ) (rm : RegisterManipulator) (reg : RegDescr) (bit : Nat) :
    Prog Halt σ Bool := do
  if !(← stepIfWritten T reg) then return false
  let (flipped,_) ← tryBitFlip T rm reg.name bit
  if !flipped then return false
  ptraceSafe T.cont
  return true

def doBitFlip (T : Tracee σ) (cs : Capstone) (opts : Options) (garbage : Scanned)
    (childPIDToInject : Nat) : Prog Halt σ Bool := do
  assert (childPIDToInject > 0) "Uninitialized?"
  let (ip,rm) ← getProgramCounter T RegisterManipulator.init
  let childAS ← addressSpace T garbage
  if ← skipsLibrary opts childAS ip then return false
  let (reg,bit,success) ← getSelectedRegAndBit T cs opts ip
  if !success then return false
  flipSelected T rm reg bit

end Zofi.Model.BitFlip
