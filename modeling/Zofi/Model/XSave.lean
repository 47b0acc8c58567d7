import Zofi.Model.Utils

/-! The raw buffer of PTRACE_GETREGSET NT_X86_XSTATE and its serialised copy.
`XSave` is a packed struct of byte arrays and `zmm` follows it in `VecRegsState`, so an
index past one row is the next row, and past the last row of `XSave` it is `zmm`. -/
namespace Zofi.Model.XSave
open Utils

def xmmBytes : Nat := 16
def ymmHiBytes : Nat := 16
def ymmBytes : Nat := 32
def opmaskBytes : Nat := 8
def zmmHiBytes : Nat := 32
def zmmBytes : Nat := 64
def mmBytes : Nat := 16

/-! Offsets of the fields of `XSave`, each behind the one before it. -/

def legacyFsaveFcw : Nat := 0
def legacyFsaveFsw : Nat := legacyFsaveFcw + 2
def legacyFsaveFtw : Nat := legacyFsaveFsw + 2
def legacyFsaveFop : Nat := legacyFsaveFtw + 2
def legacyFsaveFip : Nat := legacyFsaveFop + 2
def legacyFsaveFdp : Nat := legacyFsaveFip + 8
def legacyFsaveMxcsr : Nat := legacyFsaveFdp + 8
def legacyFsaveMxcsrMask : Nat := legacyFsaveMxcsr + 4
def legacyMm0to7 : Nat := legacyFsaveMxcsrMask + 4
def legacyXmm0to15 : Nat := legacyMm0to7 + 8 * mmBytes
def legacyReserved : Nat := legacyXmm0to15 + 16 * xmmBytes
def headerXstateBv : Nat := legacyReserved + 96
def headerXcompBv : Nat := headerXstateBv + 8
def headerReserved : Nat := headerXcompBv + 8
def ymmHi128 : Nat := headerReserved + 48
def opmask0to7 : Nat := ymmHi128 + 16 * ymmHiBytes
def zmmHi256 : Nat := opmask0to7 + 8 * opmaskBytes
def zmmFull16to31 : Nat := zmmHi256 + 16 * zmmHiBytes
def sizeofXSave : Nat := zmmFull16to31 + 16 * zmmBytes

def numZMMRegs : Nat := 32

def zmm (reg byte : Nat) : Nat := sizeofXSave + reg * zmmBytes + byte

def sizeofVecRegsState : Nat := sizeofXSave + numZMMRegs * zmmBytes

def getZMMInternal (reg byte : Nat) : Except Halt Nat :=
  if reg ≤ 15 then
    if byte ≤ xmmBytes then .ok (legacyXmm0to15 + reg * xmmBytes + byte)
    else if byte ≤ ymmBytes then .ok (ymmHi128 + reg * ymmHiBytes + (byte - ymmHiBytes))
    else if byte ≤ zmmBytes then .ok (zmmHi256 + reg * zmmHiBytes + (byte - zmmHiBytes))
    else .error (.die "Byte out of bounds")
  else if reg ≤ 31 then .ok (zmmFull16to31 + reg * zmmBytes + byte)
  else .error (.die "Register out of bounds")

abbrev VecRegsState := Image sizeofVecRegsState

def VecRegsState.init : VecRegsState := fun _ => 0

def VecRegsState.xsave (state : VecRegsState) : Image sizeofXSave :=
  fun i => state (i.castLE (by decide))

/-- The kernel writes the delivered buffer over the raw one. -/
def VecRegsState.setXsave (state : VecRegsState) (buffer : Image sizeofXSave) : VecRegsState :=
  fun i => if inside : i.val < sizeofXSave then buffer ⟨i.val,inside⟩ else state i

def everyByte : List (Nat × Nat) :=
  (List.range numZMMRegs).flatMap fun reg => (List.range zmmBytes).map fun byte => (reg,byte)

def importByte (state : VecRegsState) (index : Nat × Nat) : Except Halt VecRegsState := do
  write state (zmm index.1 index.2) (← read state (← getZMMInternal index.1 index.2))

def VecRegsState.importData (state : VecRegsState) : Except Halt VecRegsState :=
  everyByte.foldlM importByte state

def exportByte (state : VecRegsState) (index : Nat × Nat) : Except Halt VecRegsState := do
  write state (← getZMMInternal index.1 index.2) (← read state (zmm index.1 index.2))

def VecRegsState.exportData (state : VecRegsState) : Except Halt VecRegsState :=
  everyByte.foldlM exportByte state

end Zofi.Model.XSave
