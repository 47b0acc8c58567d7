import Zofi.Semantics.StoppedThread

/-! What RegisterManipulator::tryBitFlip hands back to the kernel: the delivered registers
with one bit complemented, or the delivered registers themselves when the bit lies in the
manipulator's own serialised copy of the vector registers. -/
namespace Zofi.RegisterFlip
open ByteImage Sys Model.Utils Model.XSave Model.Regs Model.RegManip Semantics.StoppedThread

theorem everyByte_inside (index : Nat × Nat) (member : index ∈ everyByte) :
    index.1 < numZMMRegs ∧ index.2 < zmmBytes := by
  obtain ⟨reg,hr,row⟩ := List.mem_flatMap.mp member
  obtain ⟨byte,hb,rfl⟩ := List.mem_map.mp row
  exact ⟨List.mem_range.mp hr,List.mem_range.mp hb⟩

theorem getZMMInternal_inside (reg byte : Nat) (hr : reg < numZMMRegs) (hb : byte < zmmBytes) :
    ∃ offset, getZMMInternal reg byte = .ok offset ∧ offset < sizeofVecRegsState := by
  have areas : sizeofVecRegsState = 4480 ∧ legacyXmm0to15 = 160 ∧ ymmHi128 = 576 ∧ zmmHi256 = 896 ∧
    zmmFull16to31 = 1408 := by decide
  have sizes : numZMMRegs = 32 ∧ xmmBytes = 16 ∧ ymmBytes = 32 ∧ zmmBytes = 64 := by decide
  have rows : reg * xmmBytes = reg * 16 ∧ reg * ymmHiBytes = reg * 16 ∧ reg * zmmHiBytes = reg * 32 ∧
    reg * zmmBytes = reg * 64 := ⟨rfl,rfl,rfl,rfl⟩
  unfold getZMMInternal
  by_cases low : reg ≤ 15
  · by_cases xmm : byte ≤ xmmBytes
    · exact ⟨_,by rw [if_pos low,if_pos xmm],by omega⟩
    · by_cases ymm : byte ≤ ymmBytes
      · exact ⟨_,by rw [if_pos low,if_neg xmm,if_pos ymm],by omega⟩
      · exact ⟨_,by rw [if_pos low,if_neg xmm,if_neg ymm,if_pos (by omega)],by omega⟩
  · exact ⟨_,by rw [if_neg low,if_pos (by omega)],by omega⟩

theorem zmm_inside (reg byte : Nat) (hr : reg < numZMMRegs) (hb : byte < zmmBytes) :
    sizeofXSave ≤ zmm reg byte ∧ zmm reg byte < sizeofVecRegsState := by
  simp only [numZMMRegs,zmmBytes] at hr hb
  simp only [zmm,sizeofVecRegsState,numZMMRegs,zmmBytes]
  omega

theorem xsave_update_behind (state : VecRegsState) (offset : Nat) (value : Byte)
    (inside : offset < sizeofVecRegsState) (behind : sizeofXSave ≤ offset) :
    VecRegsState.xsave (Function.update state ⟨offset,inside⟩ value) = state.xsave := by
  funext i
  refine Function.update_of_ne ?_ _ _
  intro same
  have equal : i.val = offset := congrArg Fin.val same
  have bound := i.isLt
  omega

theorem xsave_update (state : VecRegsState) (offset : Nat) (value : Byte)
    (inside : offset < sizeofVecRegsState) (before : offset < sizeofXSave) :
    VecRegsState.xsave (Function.update state ⟨offset,inside⟩ value) =
      Function.update state.xsave ⟨offset,before⟩ value := by
  funext i
  by_cases same : i.val = offset
  · obtain rfl : i = ⟨offset,before⟩ := Fin.ext same
    rw [Function.update_self]
    exact Function.update_self _ _ _
  · rw [Function.update_of_ne (fun equal => same (congrArg Fin.val equal))]
    exact Function.update_of_ne (fun equal => same (congrArg Fin.val equal)) _ _

theorem xsave_setXsave (state : VecRegsState) (buffer : Image sizeofXSave) :
    (state.setXsave buffer).xsave = buffer := by
  funext i
  exact dif_pos i.isLt

theorem importData_xsave (state : VecRegsState) :
    ∃ imported, state.importData = .ok imported ∧ imported.xsave = state.xsave := by
  refine foldlM_keeps importByte (fun next => next.xsave = state.xsave) everyByte ?_ state rfl
  intro next same index member
  obtain ⟨hr,hb⟩ := everyByte_inside index member
  obtain ⟨offset,found,inside⟩ := getZMMInternal_inside index.1 index.2 hr hb
  obtain ⟨behind,room⟩ := zmm_inside index.1 index.2 hr hb
  refine ⟨Function.update next ⟨zmm index.1 index.2,room⟩ (next ⟨offset,inside⟩),?_,?_⟩
  · simp only [importByte,found,bind,Except.bind,read_inside next offset inside,write_inside next _ _ room]
  · rw [xsave_update_behind _ _ _ _ behind,same]

theorem exec_importRegistersTo (env : Env) (rm : RegisterManipulator) (m : Machine) :
    ∃ vecregs : VecRegsState, vecregs.xsave = m.child.xsave ∧
      exec (importRegistersTo (tracee env) rm) m = (.ok ⟨m.child.gpregs,vecregs⟩,m) := by
  obtain ⟨imported,ran,same⟩ := importData_xsave (rm.vecregs.setXsave m.child.xsave)
  refine ⟨imported,same.trans (xsave_setXsave _ _),?_⟩
  simp only [importRegistersTo,tracee,exec_bind,exec_get,exec_pure,exec_lift,ran]

def outgoing (rm : RegisterManipulator) : Fin sizeofUserRegs ⊕ Fin sizeofXSave → Byte :=
  Sum.elim rm.gpregs rm.vecregs.xsave

/-- The bit of the thread's registers that `bit` of a register at `pointer` is; `none` if
the pointer leads into the serialised copy, which is no part of the thread. -/
def location (pointer : RegPtr) (bit : Nat) : Option ((Fin sizeofUserRegs ⊕ Fin sizeofXSave) × Fin 8) :=
  match pointer with
  | .gpregs offset =>
    if inside : offset + bit / 8 < sizeofUserRegs then
      some (.inl ⟨offset + bit / 8,inside⟩,⟨bit % 8,Nat.mod_lt _ (by decide)⟩)
    else none
  | .vecregs offset =>
    if inside : offset + bit / 8 < sizeofXSave then
      some (.inr ⟨offset + bit / 8,inside⟩,⟨bit % 8,Nat.mod_lt _ (by decide)⟩)
    else none

def flipped (registers : Fin sizeofUserRegs ⊕ Fin sizeofXSave → Byte) (pointer : RegPtr) (bit : Nat) :
    Fin sizeofUserRegs ⊕ Fin sizeofXSave → Byte :=
  match location pointer bit with
  | some place => complement registers place
  | none => registers

def Inside (pointer : RegPtr) (bit : Nat) : Prop :=
  match pointer with
  | .gpregs offset => offset + bit / 8 < sizeofUserRegs
  | .vecregs offset => offset + bit / 8 < sizeofVecRegsState

def newByte (old : Byte) (bit : Nat) : Byte := old ^^^ (1#8 <<< (bit % 8))

theorem load_store (rm : RegisterManipulator) (pointer : RegPtr) (bit : Nat) (inside : Inside pointer bit) :
    ∃ old next, rm.load (pointer.add (bit / 8)) = .ok old ∧
      rm.store (newByte old bit) (pointer.add (bit / 8)) = .ok next ∧
      outgoing next = flipped (outgoing rm) pointer bit := by
  cases pointer with
  | gpregs offset =>
    have inside : offset + bit / 8 < sizeofUserRegs := inside
    refine ⟨rm.gpregs ⟨_,inside⟩,
      {rm with gpregs := Function.update rm.gpregs ⟨_,inside⟩ (newByte (rm.gpregs ⟨_,inside⟩) bit)},
      read_inside _ _ inside,?_,?_⟩
    · simp only [RegPtr.add,RegisterManipulator.store,write_inside _ _ _ inside,bind,Except.bind,pure,Except.pure]
    · simp only [flipped,location,dif_pos inside,outgoing,complement,Sum.elim_inl]
      exact (Sum.elim_update_left ..)
  | vecregs offset =>
    have inside : offset + bit / 8 < sizeofVecRegsState := inside
    refine ⟨rm.vecregs ⟨_,inside⟩,
      {rm with vecregs := Function.update rm.vecregs ⟨_,inside⟩ (newByte (rm.vecregs ⟨_,inside⟩) bit)},
      read_inside _ _ inside,?_,?_⟩
    · simp only [RegPtr.add,RegisterManipulator.store,write_inside _ _ _ inside,bind,Except.bind,pure,Except.pure]
    · by_cases before : offset + bit / 8 < sizeofXSave
      · simp only [flipped,location,dif_pos before,outgoing,complement,Sum.elim_inr]
        rw [xsave_update _ _ _ inside before]
        exact (Sum.elim_update_right ..)
      · simp only [flipped,location,dif_neg before,outgoing]
        rw [xsave_update_behind _ _ _ inside (by omega)]

def installed (m : Machine) (rm : RegisterManipulator) : Machine :=
  {m with
    child := {m.child with gpregs := rm.gpregs,xsave := rm.vecregs.xsave}
    handed := some rm.vecregs.xsave}

def Accepts (env : Env) (m : Machine) (rm : RegisterManipulator) : Prop :=
  env.acceptsRegs m.child rm.gpregs = true ∧
    env.acceptsRegSet {m.child with gpregs := rm.gpregs} rm.vecregs.xsave = true

theorem exec_exportRegisters (env : Env) (rm : RegisterManipulator) (m : Machine)
    (accepts : Accepts env m rm) :
    exec (exportRegisters (tracee env) rm) m = (.ok true,installed m rm) := by
  obtain ⟨general,vector⟩ := accepts
  have vector : env.acceptsRegSet ⟨rm.gpregs,m.child.xsave,m.child.memory⟩ rm.vecregs.xsave = true := vector
  simp [exportRegisters,tracee,setRegs,setRegSet,exec_bind,exec_map,general,vector,installed]

theorem exec_exportRegisters_refused (env : Env) (rm : RegisterManipulator) (m : Machine)
    (refuses : ¬ Accepts env m rm) :
    ∃ m', exec (exportRegisters (tracee env) rm) m = (.ok false,m') ∧ m'.resumed = m.resumed := by
  by_cases general : env.acceptsRegs m.child rm.gpregs = true
  · have vector : env.acceptsRegSet ⟨rm.gpregs,m.child.xsave,m.child.memory⟩ rm.vecregs.xsave = false := by
      simpa [Accepts,general] using refuses
    simp [exportRegisters,tracee,setRegs,setRegSet,exec_bind,exec_map,general,vector]
  · simp [exportRegisters,tracee,setRegs,exec_bind,exec_map,general]

/-- The manipulator that goes out for the flip: what it hands over is the delivered
registers with the bit at `location` complemented. -/
theorem exec_tryBitFlip (env : Env) (rm : RegisterManipulator) (m : Machine) (reg : String) (bit : Nat)
    (data : RegData) (pointer : RegPtr) (row : strToRegMap.lookup reg = some data)
    (stored : data.regPtr = some pointer) (inside : Inside pointer bit) :
    ∃ next : RegisterManipulator, outgoing next = flipped m.child.registers pointer bit ∧
      exec (tryBitFlip (tracee env) rm reg bit) m =
        exec (do return (← exportRegisters (tracee env) next,next)) m := by
  obtain ⟨vecregs,delivered,imported⟩ := exec_importRegistersTo env rm m
  obtain ⟨old,next,loaded,stored',out⟩ := load_store ⟨m.child.gpregs,vecregs⟩ pointer bit inside
  refine ⟨next,?_,?_⟩
  · rw [out]
    simp only [outgoing,delivered,Child.registers]
  · have found : getRegDataForStrSafe reg = .ok data := by simp only [getRegDataForStrSafe,row]
    have field : data.getRegPtr = .ok pointer := by simp only [RegData.getRegPtr,stored]
    have present : assert (strToRegMap.lookup reg).isSome "Missing register from map" = .ok () := by
      simp [assert,row]
    have contents : getRegisterContents ⟨m.child.gpregs,vecregs⟩ reg bit = .ok old := by
      simp only [getRegisterContents,getRegisterPtr,found,field,bind,Except.bind,pure,Except.pure,loaded]
    have written : setRegisterContents ⟨m.child.gpregs,vecregs⟩ reg (newByte old bit) bit = .ok next := by
      simp only [setRegisterContents,found,field,bind,Except.bind,stored']
    unfold tryBitFlip
    rw [present]
    simp only [exec_bind,exec_lift,imported,contents]
    rw [show old ^^^ 1#8 <<< (bit % 8) = newByte old bit from rfl,written]

end Zofi.RegisterFlip
