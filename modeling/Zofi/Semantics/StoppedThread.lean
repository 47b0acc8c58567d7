import Zofi.Model.BitFlip

/-! One stopped thread as ptrace() presents it. The kernel delivers the state the thread is
in and, where it accepts a request, installs exactly the buffer it is handed; which buffers
it accepts, and what an instruction does, is left open. -/
namespace Zofi.Semantics.StoppedThread
open Sys Model.Utils Model.XSave Model.Regs Model.RegManip

structure Child where
  gpregs : Image sizeofUserRegs
  xsave : Image sizeofXSave
  memory : BitVec 64 → Option Byte

def Child.registers (child : Child) : Fin sizeofUserRegs ⊕ Fin sizeofXSave → Byte :=
  Sum.elim child.gpregs child.xsave

structure Env where
  /-- The state one instruction leads to, and the status waitpid() then reports. -/
  singleStep : Child → Child × Nat
  acceptsRegs : Child → Image sizeofUserRegs → Bool
  acceptsRegSet : Child → Image sizeofXSave → Bool
  /-- What a refused PTRACE_SETREGS leaves behind: registers before the bad one are set. -/
  refusedRegs : Child → Image sizeofUserRegs → Image sizeofUserRegs
  maps : Child → Option (List Char)
  rand : Nat → Nat

/-- `handed` is the last buffer given to PTRACE_SETREGSET, `steps` counts the single steps,
`resumed` holds the states the child was continued in, latest first, and `drawn` counts the
calls of rand(). -/
structure Machine where
  child : Child
  handed : Option (Image sizeofXSave) := none
  pending : Option Nat := none
  steps : Nat := 0
  resumed : List Child := []
  drawn : Nat := 0

def peekWord (memory : BitVec 64 → Option Byte) (address : BitVec 64) : BitVec 64 :=
  let bytes := (List.range 8).mapM fun i => memory (address + BitVec.ofNat 64 i)
  match bytes with
  | some bytes => bytes.foldr (fun byte word => (word <<< 8) ||| byte.setWidth 64) 0
  | none => -1

def setRegs (env : Env) (gpregs : Image sizeofUserRegs) : Prog Halt Machine Bool := do
  let m ← get
  if env.acceptsRegs m.child gpregs then
    set {m with child := {m.child with gpregs}}
    return true
  else
    set {m with child := {m.child with gpregs := env.refusedRegs m.child gpregs}}
    return false

def setRegSet (env : Env) (xsave : Image sizeofXSave) : Prog Halt Machine Bool := do
  let m ← get
  if env.acceptsRegSet m.child xsave then
    set {m with child := {m.child with xsave},handed := some xsave}
    return true
  else
    set {m with handed := some xsave}
    return false

def singleStep (env : Env) : Prog Halt Machine Bool := do
  let m ← get
  let (child,status) := env.singleStep m.child
  set {m with child,pending := some status,steps := m.steps + 1}
  return true

def waitpid : Prog Halt Machine (Option Nat) := do
  let m ← get
  match m.pending with
  | some status =>
    set {m with pending := none}
    return some status
  | none => fail .waiting

def cont : Prog Halt Machine Bool := do
  let m ← get
  set {m with resumed := m.child :: m.resumed}
  return true

def rand (env : Env) : Prog Halt Machine Nat := do
  let m ← get
  set {m with drawn := m.drawn + 1}
  return env.rand m.drawn

def tracee (env : Env) : Tracee Machine where
  getRegs := return some (← get).child.gpregs
  getRegSet := return some (← get).child.xsave
  setRegs := setRegs env
  setRegSet := setRegSet env
  peekText address := return peekWord (← get).child.memory address
  singleStep := singleStep env
  waitpid := waitpid
  cont := cont
  maps := return env.maps (← get).child
  rand := rand env

end Zofi.Semantics.StoppedThread
