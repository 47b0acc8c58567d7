import Zofi.Model.Regs

/-! RegisterManipulator: reading, selecting and flipping the registers of a stopped thread.
What it asks of the kernel and of capstone is a parameter; what it does with the answers
is the code of regManip.cpp. -/
namespace Zofi.Model.RegManip
open Utils XSave Regs Sys

/-- The ptrace() requests on the thread the manipulator was made for, and rand().
A request that can fail returns `none` or `false` for -1. -/
structure Tracee (σ : Type) where
  getRegs : Prog Halt σ (Option (Image sizeofUserRegs))
  getRegSet : Prog Halt σ (Option (Image sizeofXSave))
  setRegs : Image sizeofUserRegs → Prog Halt σ Bool
  setRegSet : Image sizeofXSave → Prog Halt σ Bool
  /-- The raw result of PTRACE_PEEKTEXT: the word, or -1 on failure. -/
  peekText : BitVec 64 → Prog Halt σ (BitVec 64)
  singleStep : Prog Halt σ Bool
  waitpid : Prog Halt σ (Option Nat)
  cont : Prog Halt σ Bool
  maps : Prog Halt σ (Option (List Char))
  rand : Prog Halt σ Nat

variable {σ : Type}

def fail {α : Type} (halt : Halt) : Prog Halt σ α := throw halt

def ptraceSafe (request : Prog Halt σ Bool) : Prog Halt σ Unit := do
  if !(← request) then fail (.die "ptrace() failed.")

def randSafe (T : Tracee σ) (max : Nat) : Prog Halt σ Nat := do
  let value ← T.rand
  return if max ≠ 0 then value % max else value

inductive CsGroup
  | jump | call | ret | int | iret | privilege | branchRelative
  | other (id : Nat)
  deriving DecidableEq, Repr

/-- Register ids are capstone's; X86_REG_INVALID is 0. -/
inductive X86Op
  | reg (reg access : Nat)
  | mem (segment base index : Nat)
  | other
  deriving DecidableEq, Repr

structure CsInsn where
  groups : List CsGroup
  regsRead : List Nat
  regsWrite : List Nat
  operands : List X86Op
  deriving DecidableEq, Repr

structure Capstone where
  disasm : List Byte → Option CsInsn
  regName : Nat → String

structure Options where
  injectTo : String := "rwe"
  forceInjectToReg : Option String := none
  forceInjectToBit : Option String := none
  dontInjectToLibs : Bool := false
  deriving DecidableEq, Repr

structure RegDescr where
  name : String := ""
  startBit : Nat := 0
  bits : Nat := 0
  written : Bool := false
  deriving DecidableEq, Repr

abbrev RegsVec := List RegDescr

structure RegisterManipulator where
  gpregs : Image sizeofUserRegs
  vecregs : VecRegsState

def RegisterManipulator.init : RegisterManipulator := ⟨fun _ => 0,VecRegsState.init⟩

def importRegistersTo (T : Tracee σ) (rm : RegisterManipulator) : Prog Halt σ RegisterManipulator := do
  let gpregs ← (do
    match ← T.getRegs with
    | some gpregs => return gpregs
    | none => fail (.die "ptrace() failed."))
  -- The result of this request is not checked.
  let delivered ← T.getRegSet
  let raw := match delivered with
    | some buffer => rm.vecregs.setXsave buffer
    | none => rm.vecregs
  let vecregs ← raw.importData
  return ⟨gpregs,vecregs⟩

def exportRegisters (T : Tracee σ) (rm : RegisterManipulator) : Prog Halt σ Bool := do
  if !(← T.setRegs rm.gpregs) then return false
  if !(← T.setRegSet rm.vecregs.xsave) then return false
  return true

def getStartBit (reg : String) : Except Halt Nat := do return (← getRegDataForStrSafe reg).startBit
def getBits (reg : String) : Except Halt Nat := do return (← getRegDataForStrSafe reg).bits

/-- The pointer is not null behind `getRegPtr`, so the callers' null checks never fire. -/
def getRegisterPtr (reg : String) (bit : Nat) : Except Halt RegPtr := do
  let data ← getRegDataForStrSafe reg
  let field ← data.getRegPtr
  return field.add (bit / 8)

def RegisterManipulator.load (rm : RegisterManipulator) : RegPtr → Except Halt Byte
  | .gpregs offset => read rm.gpregs offset
  | .vecregs offset => read rm.vecregs offset

def RegisterManipulator.store (rm : RegisterManipulator) (value : Byte) :
    RegPtr → Except Halt RegisterManipulator
  | .gpregs offset => do return {rm with gpregs := ← write rm.gpregs offset value}
  | .vecregs offset => do return {rm with vecregs := ← write rm.vecregs offset value}

def getRegisterContents (rm : RegisterManipulator) (reg : String) (bit : Nat) : Except Halt Byte := do
  rm.load (← getRegisterPtr reg bit)

def getRegisterWord (rm : RegisterManipulator) (reg : String) : Except Halt (BitVec 64) := do
  let pointer ← getRegisterPtr reg 0
  (List.range 8).foldrM (fun i word => do
    let byte ← rm.load (pointer.add i)
    return (word <<< 8) ||| byte.setWidth 64) 0

def setRegisterContents (rm : RegisterManipulator) (reg : String) (value : Byte) (bit : Nat) :
    Except Halt RegisterManipulator := do
  let data ← getRegDataForStrSafe reg
  let field ← data.getRegPtr
  rm.store value (field.add (bit / 8))

def isControlInstr (instr : CsInsn) : Bool :=
  instr.groups.any fun
    | .jump | .call | .ret | .int | .iret | .privilege | .branchRelative => true
    | .other _ => false

def csAcRead : Nat := 1
def csAcWrite : Nat := 2

structure Collected where
  wRegs : RegsVec := []
  rRegs : RegsVec := []
  allRegs : RegsVec := []
  deriving DecidableEq, Repr

def collectIP (injectTo : String) (instr : CsInsn) (regs : Collected) : Except Halt Collected :=
  if (isIn injectTo "c" && isControlInstr instr) || (isIn injectTo "o" && !isControlInstr instr) then do
    let data ← getRegDataForStrSafe "rip"
    let descr : RegDescr := ⟨"rip",data.startBit,data.bits,false⟩
    return ⟨regs.wRegs ++ [descr],regs.rRegs ++ [descr],regs.allRegs ++ [descr]⟩
  else return regs

/-- 2. Implicitly accessed registers; they are not put into AllRegs. -/
def collectImplicit (cs : Capstone) (injectTo : String) (instr : CsInsn) (regs : Collected) :
    Except Halt Collected :=
  if isIn injectTo "i" then do
    let regs ← instr.regsRead.foldlM (fun (regs : Collected) id => do
      let data ← getRegDataForStrSafe (cs.regName id)
      return {regs with rRegs := regs.rRegs ++ [⟨cs.regName id,data.startBit,data.bits,false⟩]}) regs
    instr.regsWrite.foldlM (fun (regs : Collected) id => do
      let data ← getRegDataForStrSafe (cs.regName id)
      return {regs with wRegs := regs.wRegs ++ [⟨cs.regName id,data.startBit,data.bits,true⟩]}) regs
  else return regs

def collectOperand (cs : Capstone) (regs : Collected) : X86Op → Except Halt Collected
  | .reg reg access => do
    let name := cs.regName reg
    let descr : RegDescr := {name,startBit := ← getStartBit name,bits := ← getBits name}
    -- An operand that is both written and read counts as written only.
    if access &&& csAcWrite ≠ 0 then
      let written := {descr with written := true}
      return {regs with wRegs := regs.wRegs ++ [written],allRegs := regs.allRegs ++ [written]}
    else if access &&& csAcRead ≠ 0 then
      return {regs with rRegs := regs.rRegs ++ [descr],allRegs := regs.allRegs ++ [descr]}
    else return {regs with allRegs := regs.allRegs ++ [descr]}
  | .mem segment base index =>
    [segment,base,index].foldlM (fun (regs : Collected) reg => do
      if reg = 0 then return regs
      let name := cs.regName reg
      let descr : RegDescr := {name,startBit := ← getStartBit name,bits := ← getBits name}
      return {regs with rRegs := regs.rRegs ++ [descr],allRegs := regs.allRegs ++ [descr]}) regs
  | .other => return regs

def collectExplicit (cs : Capstone) (injectTo : String) (instr : CsInsn) (regs : Collected) :
    Except Halt Collected :=
  if isIn injectTo "e" then instr.operands.foldlM (collectOperand cs) regs else return regs

def maxInstrBytes : Nat := 16

/-- The copy loop: each word is cut down to its first byte. -/
def copyInstr (T : Tracee σ) (childIP : BitVec 64) : Prog Halt σ (List Byte) :=
  (List.range maxInstrBytes).foldlM (fun bytes i => do
    let word ← T.peekText (childIP + BitVec.ofNat 64 i)
    if word = -1 then fail (.die "ptrace() failed.")
    return bytes ++ [word.setWidth 8]) []

def getInstrRegisters (T : Tracee σ) (cs : Capstone) (opts : Options) (childIP : BitVec 64) :
    Prog Halt σ Collected := do
  let childMem ← copyInstr T childIP
  match cs.disasm (childMem.take 8) with
  | none => return {}
  | some instr =>
    let regs ← collectIP opts.injectTo instr {}
    let regs ← collectImplicit cs opts.injectTo instr regs
    collectExplicit cs opts.injectTo instr regs

def candidates (opts : Options) (regs : Collected) : Except Halt RegsVec :=
  match opts.forceInjectToReg with
  | some forcedReg => do
    let data ← getRegDataForStrSafe forcedReg true
    return [{name := forcedReg,startBit := data.startBit,bits := data.bits}]
  | none => do
    assert (isIn opts.injectTo "r" || isIn opts.injectTo "w") "At least one of 'r', 'w' should be enabled"
    return if isIn opts.injectTo "r" && isIn opts.injectTo "w" then regs.allRegs
      else if isIn opts.injectTo "r" then regs.rRegs else regs.wRegs

def selectedIndex (T : Tracee σ) (opts : Options) (count : Nat) : Prog Halt σ Nat :=
  if opts.forceInjectToReg.isSome then return 0 else randSafe T count

def selectedBit (T : Tracee σ) (opts : Options) (reg : RegDescr) : Prog Halt σ (RegDescr × Nat × Bool) :=
  match opts.forceInjectToBit with
  | some forcedBit => do
    let bit := toUnsigned (← strtolSafe forcedBit)
    return (reg,bit,decide (reg.startBit ≤ bit ∧ bit < reg.startBit + reg.bits))
  | none => do
    let bit := reg.startBit + (← randSafe T reg.bits)
    assert (reg.startBit ≤ bit && bit < reg.startBit + reg.bits) "Bad RandBit"
    return (reg,bit,true)

def getSelectedRegAndBit (T : Tracee σ) (cs : Capstone) (opts : Options) (ip : BitVec 64) :
    Prog Halt σ (RegDescr × Nat × Bool) := do
  let regs ← getInstrRegisters T cs opts ip
  let regsVec ← candidates opts regs
  if regsVec = [] then return ({},0,false)
  let selectedReg ← selectedIndex T opts regsVec.length
  selectedBit T opts (regsVec.getD selectedReg {})

def getProgramCounter (T : Tracee σ) (rm : RegisterManipulator) :
    Prog Halt σ (BitVec 64 × RegisterManipulator) := do
  let rm ← importRegistersTo T rm
  let childIP ← getRegisterWord rm "rip"
  return (childIP,rm)

def tryBitFlip (T : Tracee σ) (rm : RegisterManipulator) (reg : String) (bit : Nat) :
    Prog Halt σ (Bool × RegisterManipulator) := do
  assert (strToRegMap.lookup reg).isSome "Missing register from map"
  let rm ← importRegistersTo T rm
  let oldByte ← getRegisterContents rm reg bit
  let newByte := oldByte ^^^ (1#8 <<< (bit % 8))
  let rm ← setRegisterContents rm reg newByte bit
  let exportSuccess ← exportRegisters T rm
  return (exportSuccess,rm)

end Zofi.Model.RegManip
