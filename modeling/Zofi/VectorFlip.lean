import Zofi.RegisterFlip
import Zofi.Semantics.Layout

/-! Faults in the vector registers. tryBitFlip flips the bit in the serialised copy, and
what is handed to PTRACE_SETREGSET is the raw buffer. -/
namespace Zofi.VectorFlip
open ByteImage Sys Model.Utils Model.XSave Model.Regs Model.RegManip
open Semantics.StoppedThread Semantics.Layout RegisterFlip

def entry (reg : VectorReg) : String × RegData := (reg.name,vec (zmm reg.index 0) 0 reg.kind.bits)

def serialised (data : RegData) : Bool :=
  match data.regPtr with
  | some (.vecregs offset) => decide (sizeofXSave ≤ offset)
  | _ => false

theorem vector_row (reg : VectorReg) : strToRegMap.lookup reg.name = some (entry reg).2 := by
  obtain ⟨kind,index⟩ := reg
  revert index
  cases kind <;> decide +kernel

theorem serialised_pointer (reg : VectorReg) (bit : Fin reg.kind.bits) :
    Inside (.vecregs (zmm reg.index 0)) bit ∧ location (.vecregs (zmm reg.index 0)) bit = none := by
  have bound := bits_le reg.kind
  have size : sizeofVecRegsState = sizeofXSave + 2048 := rfl
  have row : reg.index.val * zmmBytes = reg.index.val * 64 := rfl
  simp only [Inside,location,zmm]
  exact ⟨by omega,dif_neg (by omega)⟩

def TakesBack (env : Env) (child : Child) : Prop :=
  env.acceptsRegs child child.gpregs = true ∧ env.acceptsRegSet child child.xsave = true

theorem outgoing_unchanged (env : Env) (rm : RegisterManipulator) (m : Machine) (reg : VectorReg)
    (bit : Fin reg.kind.bits) :
    ∃ next : RegisterManipulator, next.gpregs = m.child.gpregs ∧ next.vecregs.xsave = m.child.xsave ∧
      exec (tryBitFlip (tracee env) rm reg.name bit) m =
        exec (do return (← exportRegisters (tracee env) next,next)) m := by
  obtain ⟨inside,absent⟩ := serialised_pointer reg bit
  obtain ⟨next,out,ran⟩ := exec_tryBitFlip env rm m reg.name bit _ _ (vector_row reg) rfl inside
  rw [flipped,absent] at out
  exact ⟨next,funext fun i => congrFun out (.inl i),funext fun i => congrFun out (.inr i),ran⟩

theorem accepts_iff (env : Env) (m : Machine) (next : RegisterManipulator)
    (general : next.gpregs = m.child.gpregs) (vector : next.vecregs.xsave = m.child.xsave) :
    Accepts env m next ↔ TakesBack env m.child := by
  rw [Accepts,general,vector,TakesBack]

theorem tryBitFlip_taken (env : Env) (rm : RegisterManipulator) (m : Machine) (reg : VectorReg)
    (bit : Fin reg.kind.bits) (takes : TakesBack env m.child) :
    ∃ next m', exec (tryBitFlip (tracee env) rm reg.name bit) m = (.ok (true,next),m') ∧
      m'.handed = some m.child.xsave := by
  obtain ⟨next,general,vector,ran⟩ := outgoing_unchanged env rm m reg bit
  have accepts := (accepts_iff env m next general vector).mpr takes
  refine ⟨next,installed m next,?_,by rw [← vector]; rfl⟩
  rw [ran,exec_bind_of _ _ _ _ _ (exec_exportRegisters env next m accepts)]
  rfl

theorem tryBitFlip_refused (env : Env) (rm : RegisterManipulator) (m : Machine) (reg : VectorReg)
    (bit : Fin reg.kind.bits) (refuses : ¬ TakesBack env m.child) :
    ∃ next m', exec (tryBitFlip (tracee env) rm reg.name bit) m = (.ok (false,next),m') := by
  obtain ⟨next,general,vector,ran⟩ := outgoing_unchanged env rm m reg bit
  have refuses := fun accepts => refuses ((accepts_iff env m next general vector).mp accepts)
  obtain ⟨m',exported,_⟩ := exec_exportRegisters_refused env next m refuses
  refine ⟨next,m',?_⟩
  rw [ran,exec_bind_of _ _ _ _ _ exported]
  rfl

/-- A flip reported as done was handed to the kernel: the buffer given to PTRACE_SETREGSET
and the delivered one differ in exactly the bit of the layout. -/
def ReachesBuffer (env : Env) (rm : RegisterManipulator) (m : Machine) (reg : VectorReg)
    (bit : Fin reg.kind.bits) : Prop :=
  ∀ next m', exec (tryBitFlip (tracee env) rm reg.name bit) m = (.ok (true,next),m') →
    ∃ handed, m'.handed = some handed ∧ DiffersOnlyAt m.child.xsave handed (reg.place bit)

theorem not_reaches_taken (env : Env) (rm : RegisterManipulator) (m : Machine) (reg : VectorReg)
    (bit : Fin reg.kind.bits) (takes : TakesBack env m.child) : ¬ ReachesBuffer env rm m reg bit := by
  intro reaches
  obtain ⟨next,m',ran,same⟩ := tryBitFlip_taken env rm m reg bit takes
  obtain ⟨handed,given,differs⟩ := reaches next m' ran
  obtain rfl : m.child.xsave = handed := Option.some.inj (same.symm.trans given)
  exact not_differs_self _ _ differs

/-- The fault reaches the buffer only where the kernel refuses the unchanged registers, so
that no success is reported. -/
theorem reachesBuffer_iff (env : Env) (rm : RegisterManipulator) (m : Machine) (reg : VectorReg)
    (bit : Fin reg.kind.bits) : ReachesBuffer env rm m reg bit ↔ ¬ TakesBack env m.child := by
  constructor
  · intro reaches takes
    exact not_reaches_taken env rm m reg bit takes reaches
  · intro refuses next m' ran
    obtain ⟨_,_,refused⟩ := tryBitFlip_refused env rm m reg bit refuses
    rw [refused] at ran
    simp at ran

def acceptingEnv : Env where
  singleStep child := (child,Model.WaitStatus.stoppedStatus Model.WaitStatus.sigTrap)
  acceptsRegs _ _ := true
  acceptsRegSet _ _ := true
  refusedRegs child _ := child.gpregs
  maps _ := some []
  rand _ := 0

def idle : Machine := {child := ⟨fun _ => 0,fun _ => 0,fun _ => none⟩}

theorem zmm0_flip_dropped : ¬ ReachesBuffer acceptingEnv RegisterManipulator.init idle ⟨.zmm,0⟩ ⟨0,by decide⟩ :=
  not_reaches_taken _ _ _ _ _ ⟨rfl,rfl⟩

end Zofi.VectorFlip
