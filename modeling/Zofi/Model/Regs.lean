import Zofi.Model.XSave

/-! The registers of regs.def: where each is stored, its first bit and its width. -/
namespace Zofi.Model.Regs
open Utils XSave

/-- The fields of `user_regs_struct`, in the order of sys/user.h. -/
inductive UserReg
  | r15 | r14 | r13 | r12 | rbp | rbx | r11 | r10 | r9 | r8 | rax | rcx | rdx | rsi | rdi
  | origRax | rip | cs | eflags | rsp | ss | fsBase | gsBase | ds | es | fs | gs
  deriving DecidableEq, Repr

def UserReg.offset (field : UserReg) : Nat := 8 * field.ctorIdx

def sizeofUserRegs : Nat := 8 * 27

inductive RegPtr
  | gpregs (offset : Nat)
  | vecregs (offset : Nat)
  deriving DecidableEq, Repr

structure RegData where
  regPtr : Option RegPtr
  startBit : Nat
  bits : Nat
  deriving DecidableEq, Repr

def RegData.getRegPtr (data : RegData) : Except Halt RegPtr :=
  match data.regPtr with
  | some pointer => .ok pointer
  | none => .error (.assertion "Uninitialized?")

def RegPtr.add : RegPtr → Nat → RegPtr
  | .gpregs offset,bytes => .gpregs (offset + bytes)
  | .vecregs offset,bytes => .vecregs (offset + bytes)

def gp (field : UserReg) (startBit bits : Nat) : RegData := ⟨some (.gpregs field.offset),startBit,bits⟩
def vec (offset startBit bits : Nat) : RegData := ⟨some (.vecregs offset),startBit,bits⟩
def unsupported (startBit bits : Nat) : RegData := ⟨none,startBit,bits⟩

def family (count : Nat) (name : Nat → String) (data : Nat → RegData) : List (String × RegData) :=
  (List.range count).map fun i => (name i,data i)

def generalRegs : List (String × RegData) := [
  ("r8",gp .r8 0 64),("r8d",gp .r8 0 32),("r8w",gp .r8 0 16),("r8b",gp .r8 0 8),
  ("r9",gp .r9 0 64),("r9d",gp .r9 0 32),("r9w",gp .r9 0 16),("r9b",gp .r9 0 8),
  ("r10",gp .r10 0 64),("r10d",gp .r10 0 32),("r10w",gp .r10 0 16),("r10b",gp .r10 0 8),
  ("r11",gp .r11 0 64),("r11d",gp .r11 0 32),("r11w",gp .r11 0 16),("r11b",gp .r11 0 8),
  ("r12",gp .r12 0 64),("r12d",gp .r12 0 32),("r12w",gp .r12 0 16),("r12b",gp .r12 0 8),
  ("r13",gp .r13 0 64),("r13d",gp .r13 0 32),("r13w",gp .r13 0 16),("r13b",gp .r13 0 8),
  ("r14",gp .r14 0 64),("r14d",gp .r14 0 32),("r14w",gp .r14 0 16),("r14b",gp .r14 0 8),
  ("r15",gp .r15 0 64),("r15d",gp .r15 0 32),("r15w",gp .r15 0 16),("r15b",gp .r15 0 8),
  ("rbp",gp .rbp 0 64),("ebp",gp .rbp 0 32),("bp",gp .rbp 0 16),("bpl",gp .rbp 0 8),("bph",gp .rbp 8 8),
  ("rax",gp .rax 0 64),("eax",gp .rax 0 32),("ax",gp .rax 0 16),("al",gp .rax 0 8),("ah",gp .rax 8 8),
  ("rbx",gp .rbx 0 64),("ebx",gp .rbx 0 32),("bx",gp .rbx 0 16),("bl",gp .rbx 0 8),("bh",gp .rbx 8 8),
  ("rcx",gp .rcx 0 64),("ecx",gp .rcx 0 32),("cx",gp .rcx 0 16),("cl",gp .rcx 0 8),("ch",gp .rcx 8 8),
  ("rdx",gp .rdx 0 64),("edx",gp .rdx 0 32),("dx",gp .rdx 0 16),("dl",gp .rdx 0 8),("dh",gp .rdx 8 8),
  ("rdi",gp .rdi 0 64),("edi",gp .rdi 0 32),("di",gp .rdi 0 16),("dil",gp .rdi 0 8),("dih",gp .rdi 8 8),
  ("rsi",gp .rsi 0 64),("esi",gp .rsi 0 32),("si",gp .rsi 0 16),("sil",gp .rsi 0 8),("sih",gp .rsi 8 8),
  ("rsp",gp .rsp 0 64),("esp",gp .rsp 0 32),("sp",gp .rsp 0 16),("spl",gp .rsp 0 8),
  ("orig_rax",gp .origRax 0 64),
  ("rip",gp .rip 0 64),("eip",gp .rip 0 32),("ip",gp .rip 0 16),("cs",gp .cs 0 16),
  ("eflags",gp .eflags 0 32),("flags",gp .eflags 0 16),("rflags",gp .eflags 0 64),("ss",gp .ss 0 16),
  ("fs_base",gp .fsBase 0 16),("gs_base",gp .gsBase 0 16),("ds",gp .ds 0 16),("es",gp .es 0 16),
  ("fs",gp .fs 0 16),("gs",gp .gs 0 16)]

def x87Regs : List (String × RegData) := [
  ("cwd",vec legacyFsaveFcw 0 16),("swd",vec legacyFsaveFsw 0 16),("ftw",vec legacyFsaveFtw 0 16),
  ("fop",vec legacyFsaveFop 0 16),("fp_rip",vec legacyFsaveFip 0 64),("rdp",vec legacyFsaveFdp 0 64),
  ("mxcsr",vec legacyFsaveMxcsr 0 32),("mxcr_mask",vec legacyFsaveMxcsrMask 0 32)]
  ++ family 8 (fun i => "st(" ++ toString i ++ ")") (fun i => vec (legacyMm0to7 + i * mmBytes) 0 80)
  ++ family 8 (fun i => "mm" ++ toString i) (fun i => vec (legacyMm0to7 + i * mmBytes) 0 64)
  ++ family 8 (fun i => "fp" ++ toString i) (fun i => vec (legacyMm0to7 + i * mmBytes) 0 80)

/-- xmm, ymm and zmm live in the serialised `zmm` array. -/
def vectorRegs : List (String × RegData) :=
  family 32 (fun i => "xmm" ++ toString i) (fun i => vec (zmm i 0) 0 128)
  ++ family 32 (fun i => "ymm" ++ toString i) (fun i => vec (zmm i 0) 0 256)
  ++ family 32 (fun i => "zmm" ++ toString i) (fun i => vec (zmm i 0) 0 512)

def unsupportedRegs : List (String × RegData) :=
  [("riz",unsupported 0 64),("eiz",unsupported 0 32),("fpsw",unsupported 0 80)]
  ++ family 16 (fun i => "cr" ++ toString i) (fun _ => unsupported 0 64)
  ++ family 16 (fun i => "dr" ++ toString i) (fun _ => unsupported 0 64)

def opmaskRegs : List (String × RegData) :=
  family 8 (fun i => "k" ++ toString i) (fun i => vec (opmask0to7 + i * opmaskBytes) 0 64)

def strToRegMap : List (String × RegData) :=
  generalRegs ++ x87Regs ++ vectorRegs ++ unsupportedRegs ++ opmaskRegs

def getRegDataForStrSafe (reg : String) (userError : Bool := false) : Except Halt RegData :=
  match strToRegMap.lookup reg with
  | some data => .ok data
  | none =>
    if userError then .error (.userDie ("Unknown register: " ++ reg ++ "."))
    else .error (.die ("Unknown register: " ++ reg ++ "."))

example : strToRegMap.lookup "ah" = some ⟨some (.gpregs 80),8,8⟩ := by decide

end Zofi.Model.Regs
