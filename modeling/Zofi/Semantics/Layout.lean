import Zofi.Lib.ByteImage
import Zofi.Model.XSave

/-! Where the bits of xmm, ymm and zmm are in the buffer of PTRACE_GETREGSET, read off the
layout diagram of the XSAVE area: the low 128 bits of registers 0 to 15 in the legacy area,
their next 128 and 256 bits in YMM_Hi128 and ZMM_Hi256, registers 16 to 31 whole. -/
namespace Zofi.Semantics.Layout
open Model.Utils Model.XSave

inductive VectorKind
  | xmm | ymm | zmm
  deriving DecidableEq, Repr

def VectorKind.bits : VectorKind → Nat
  | .xmm => 128
  | .ymm => 256
  | .zmm => 512

def VectorKind.name : VectorKind → String
  | .xmm => "xmm"
  | .ymm => "ymm"
  | .zmm => "zmm"

structure VectorReg where
  kind : VectorKind
  index : Fin 32
  deriving DecidableEq, Repr

def VectorReg.name (reg : VectorReg) : String := reg.kind.name ++ toString reg.index.val

def layoutByte (index : Fin 32) (byte : Fin 64) : Fin sizeofXSave :=
  if low : index.val < 16 then
    if byte.val < 16 then ⟨160 + 16 * index + byte,by have := byte.isLt; have : sizeofXSave = 2432 := rfl; omega⟩
    else if byte.val < 32 then ⟨576 + 16 * index + (byte - 16),by have : sizeofXSave = 2432 := rfl; omega⟩
    else ⟨896 + 32 * index + (byte - 32),by have : sizeofXSave = 2432 := rfl; omega⟩
  else ⟨1408 + 64 * (index - 16) + byte,by have : sizeofXSave = 2432 := rfl; omega⟩

theorem bits_le (kind : VectorKind) : kind.bits ≤ 512 := by cases kind <;> decide

def VectorReg.place (reg : VectorReg) (bit : Fin reg.kind.bits) : Fin sizeofXSave × Fin 8 :=
  (layoutByte reg.index ⟨bit / 8,by have := bits_le reg.kind; omega⟩,⟨bit % 8,Nat.mod_lt _ (by decide)⟩)

end Zofi.Semantics.Layout
