import Zofi.Lib.CopyLoop
import Zofi.RegisterFlip
import Zofi.Semantics.Layout

/-! The serialised copy of the vector registers: what importData() makes of the raw buffer,
and what exportData() makes of the copy. -/
namespace Zofi.VectorImport
open CopyLoop ByteImage Sys Model.Utils Model.XSave Semantics.Layout RegisterFlip

abbrev Index := Fin 32 × Fin 64

def low (reg : Fin 16) : Fin 32 := reg.castLE (by decide)

def high (reg : Fin 16) : Fin 32 := ⟨reg.val + 16,by omega⟩

theorem low_or_high (reg : Fin 32) : ∃ row, reg = low row ∨ reg = high row := by
  by_cases first : reg.val < 16
  · exact ⟨⟨reg.val,first⟩,.inl rfl⟩
  · refine ⟨⟨reg.val - 16,by omega⟩,.inr (Fin.ext ?_)⟩
    change reg.val = reg.val - 16 + 16
    omega

def cell (index : Index) : Fin sizeofVecRegsState :=
  ⟨zmm index.1 index.2,(zmm_inside _ _ index.1.isLt index.2.isLt).2⟩

/-- The byte of the raw buffer that `getZMMInternal` finds for the registers 0 to 15. -/
def source (row : Fin 16) (byte : Fin 64) : Fin sizeofXSave :=
  if byte.val ≤ 16 then ⟨160 + 16 * row + byte,by have : sizeofXSave = 2432 := rfl; omega⟩
  else if byte.val ≤ 32 then ⟨576 + 16 * row + (byte - 16),by have : sizeofXSave = 2432 := rfl; omega⟩
  else ⟨896 + 32 * row + (byte - 32),by have : sizeofXSave = 2432 := rfl; omega⟩

theorem raw_inside : sizeofXSave ≤ sizeofVecRegsState := by decide

/-- What `getZMMInternal` refers to: for the registers 16 to 31 it is a byte of the copy itself. -/
def home (index : Index) : Fin sizeofVecRegsState :=
  if first : index.1.val < 16 then (source ⟨index.1,first⟩ index.2).castLE raw_inside
  else cell (⟨index.1 - 16,by omega⟩,index.2)

theorem home_low (row : Fin 16) (byte : Fin 64) : home (low row,byte) = (source row byte).castLE raw_inside :=
  dif_pos row.isLt

theorem home_high (row : Fin 16) (byte : Fin 64) : home (high row,byte) = cell (low row,byte) := by
  have second : ¬ (high row).val < 16 := by simp [high]
  rw [home,dif_neg second]
  exact congrArg (fun reg => cell (reg,byte)) (Fin.ext (Nat.add_sub_cancel ..))

theorem getZMMInternal_home (index : Index) : getZMMInternal index.1 index.2 = .ok (home index).val := by
  obtain ⟨reg,byte⟩ := index
  obtain ⟨row,rfl | rfl⟩ := low_or_high reg
  · rw [home_low]
    have first : (low row).val = row.val := rfl
    have bound : row.val ≤ 15 := by omega
    have offsets : legacyXmm0to15 = 160 ∧ ymmHi128 = 576 ∧ zmmHi256 = 896 := by decide
    simp only [getZMMInternal,source,first,bound,offsets,xmmBytes,ymmBytes,ymmHiBytes,zmmHiBytes,zmmBytes,if_true,
      Fin.val_castLE]
    split_ifs <;> first | omega | (simp only [Except.ok.injEq]; omega)
  · rw [home_high]
    have second : (high row).val = row.val + 16 := rfl
    have bound : ¬ row.val + 16 ≤ 15 ∧ row.val + 16 ≤ 31 := by omega
    simp only [getZMMInternal,second,bound,if_true,if_false,cell,zmm,low,Fin.val_castLE,sizeofXSave,zmmBytes,
      Except.ok.injEq]
    omega

def everyIndex : List Index :=
  (List.finRange 32).flatMap fun reg => (List.finRange 64).map fun byte => (reg,byte)

theorem mem_everyIndex (index : Index) : index ∈ everyIndex := by
  simp [everyIndex]

theorem everyByte_everyIndex : everyByte = everyIndex.map fun index => (index.1.val,index.2.val) := by
  have regs : List.range numZMMRegs = (List.finRange 32).map Fin.val := List.map_coe_finRange_eq_range.symm
  have bytes : List.range zmmBytes = (List.finRange 64).map Fin.val := List.map_coe_finRange_eq_range.symm
  simp only [everyByte,everyIndex,regs,bytes,List.flatMap_map,List.map_flatMap,List.map_map,Function.comp_def]

theorem cell_behind (index : Index) : sizeofXSave ≤ (cell index).val :=
  (zmm_inside _ _ index.1.isLt index.2.isLt).1

theorem everyIndex_ascending : everyIndex.Pairwise fun one two => (cell one).val < (cell two).val := by
  simp only [everyIndex,List.pairwise_flatMap,List.pairwise_map]
  constructor
  · intro reg _
    apply (List.pairwise_lt_finRange 64).imp
    intro one two less
    have less : one.val < two.val := less
    simp only [cell,zmm]
    omega
  · apply (List.pairwise_lt_finRange 32).imp
    intro one two less first left second right
    obtain ⟨one',_,rfl⟩ := List.mem_map.mp left
    obtain ⟨two',_,rfl⟩ := List.mem_map.mp right
    have less : one.val < two.val := less
    have inside := one'.isLt
    simp only [cell,zmm,zmmBytes]
    omega

def importLoop : List (Fin sizeofVecRegsState × Fin sizeofVecRegsState) := everyIndex.map fun index => (cell index,home index)

def exportLoop : List (Fin sizeofVecRegsState × Fin sizeofVecRegsState) := everyIndex.map fun index => (home index,cell index)

theorem importByte_copy (state : VecRegsState) (index : Index) :
    importByte state (index.1,index.2) = .ok (copy state (cell index,home index)) := by
  rw [importByte,getZMMInternal_home]
  simp only [bind,Except.bind,read_inside _ _ (home index).isLt]
  exact write_inside _ _ _ (cell index).isLt

theorem exportByte_copy (state : VecRegsState) (index : Index) :
    exportByte state (index.1,index.2) = .ok (copy state (home index,cell index)) := by
  rw [exportByte,getZMMInternal_home]
  have inside := read_inside state (zmm index.1 index.2) (cell index).isLt
  simp only [bind,Except.bind,inside]
  exact write_inside _ _ _ (home index).isLt

theorem importData_loop (state : VecRegsState) : state.importData = .ok (copyAll state importLoop) := by
  rw [VecRegsState.importData,everyByte_everyIndex,List.foldlM_map,importLoop,copyAll,List.foldl_map]
  simp only [importByte_copy]
  exact List.foldlM_pure

theorem exportData_loop (state : VecRegsState) : state.exportData = .ok (copyAll state exportLoop) := by
  rw [VecRegsState.exportData,everyByte_everyIndex,List.foldlM_map,exportLoop,copyAll,List.foldl_map]
  simp only [exportByte_copy]
  exact List.foldlM_pure

theorem home_before (one two : Index) (less : (cell one).val < (cell two).val) : (home one).val < (cell two).val := by
  obtain ⟨reg,byte⟩ := one
  obtain ⟨row,rfl | rfl⟩ := low_or_high reg
  · rw [home_low]
    exact (source row byte).isLt.trans_le (cell_behind two)
  · rw [home_high]
    refine lt_of_le_of_lt ?_ less
    simp only [cell,zmm,zmmBytes,low,high,Fin.val_castLE]
    omega

theorem importLoop_ordered : importLoop.Pairwise fun first later => later.1 ≠ first.1 ∧ later.1 ≠ first.2 := by
  rw [importLoop,List.pairwise_map]
  apply everyIndex_ascending.imp
  intro one two less
  constructor
  · exact fun same => absurd (congrArg Fin.val same) less.ne'
  · exact fun same => absurd (congrArg Fin.val same) (home_before one two less).ne'

theorem cell_home (state : VecRegsState) (index : Index) :
    copyAll state importLoop (cell index) = copyAll state importLoop (home index) :=
  copyAll_settled state importLoop importLoop_ordered (cell index,home index)
    (List.mem_map_of_mem (mem_everyIndex index))

theorem raw_of_importLoop (state : VecRegsState) (i : Fin sizeofXSave) :
    copyAll state importLoop (i.castLE raw_inside) = state.xsave i := by
  apply copyAll_other
  intro places member same
  obtain ⟨index,_,rfl⟩ := List.mem_map.mp member
  have behind := cell_behind index
  have equal : (cell index).val = i.val := congrArg Fin.val same
  omega

/-- What the copy holds behind importData(): the registers 16 to 31 are the registers 0 to 15 once more. -/
structure Imports (raw : Image sizeofXSave) (imported : VecRegsState) : Prop where
  xsave : imported.xsave = raw
  lows : ∀ row byte, imported (cell (low row,byte)) = raw (source row byte)
  highs : ∀ row byte, imported (cell (high row,byte)) = raw (source row byte)

theorem importData_imports (state : VecRegsState) :
    ∃ imported, state.importData = .ok imported ∧ Imports state.xsave imported := by
  have lows (row : Fin 16) (byte : Fin 64) :
      copyAll state importLoop (cell (low row,byte)) = state.xsave (source row byte) := by
    rw [cell_home,home_low,raw_of_importLoop]
  refine ⟨_,importData_loop state,funext (raw_of_importLoop state),lows,?_⟩
  intro row byte
  rw [cell_home,home_high,lows]

def ImportsLayout (state : VecRegsState) : Prop :=
  ∃ imported, state.importData = .ok imported ∧
    ∀ reg byte, imported (cell (reg,byte)) = state.xsave (layoutByte reg byte)

def behindXmm (row : Fin 16) : Fin sizeofXSave := ⟨legacyXmm0to15 + (row + 1) * xmmBytes,by
  have : legacyXmm0to15 = 160 ∧ xmmBytes = 16 ∧ sizeofXSave = 2432 := by decide
  have : (row.val + 1) * xmmBytes = (row.val + 1) * 16 := rfl
  omega⟩

def behindYmmHi (row : Fin 16) : Fin sizeofXSave := ⟨ymmHi128 + (row + 1) * ymmHiBytes,by
  have : ymmHi128 = 576 ∧ sizeofXSave = 2432 := by decide
  have : (row.val + 1) * ymmHiBytes = (row.val + 1) * 16 := rfl
  omega⟩

/-- The bytes that are read in place of others are equal to these. -/
structure Coincides (raw : Image sizeofXSave) : Prop where
  ymm : ∀ row, raw (behindXmm row) = raw (layoutByte (low row) 16)
  zmm : ∀ row, raw (behindYmmHi row) = raw (layoutByte (low row) 32)
  highs : ∀ row byte, raw (layoutByte (low row) byte) = raw (layoutByte (high row) byte)

theorem source_ymm (row : Fin 16) : source row 16 = behindXmm row := by
  apply Fin.ext
  have : legacyXmm0to15 = 160 := by decide
  have : (row.val + 1) * xmmBytes = (row.val + 1) * 16 := rfl
  simp only [source,behindXmm,show (16 : Fin 64).val = 16 from rfl,le_refl,if_true]
  omega

theorem source_zmm (row : Fin 16) : source row 32 = behindYmmHi row := by
  apply Fin.ext
  have : ymmHi128 = 576 := by decide
  have : (row.val + 1) * ymmHiBytes = (row.val + 1) * 16 := rfl
  have wide : ¬ 32 ≤ 16 := by omega
  simp only [source,behindYmmHi,show (32 : Fin 64).val = 32 from rfl,le_refl,if_true,if_neg wide]
  omega

theorem source_layout (row : Fin 16) (byte : Fin 64) (ymm : byte ≠ 16) (zmm : byte ≠ 32) :
    source row byte = layoutByte (low row) byte := by
  have ymm : byte.val ≠ 16 := fun same => ymm (Fin.ext same)
  have zmm : byte.val ≠ 32 := fun same => zmm (Fin.ext same)
  have first : (low row).val = row.val := rfl
  have bound := row.isLt
  apply Fin.ext
  simp only [source,layoutByte,first,bound,dif_pos]
  split_ifs <;> first | rfl | omega

theorem coincides_iff (raw : Image sizeofXSave) :
    Coincides raw ↔ ∀ row byte, raw (source row byte) = raw (layoutByte (low row) byte) ∧
      raw (source row byte) = raw (layoutByte (high row) byte) := by
  constructor
  · intro coincides row byte
    have own : raw (source row byte) = raw (layoutByte (low row) byte) := by
      by_cases ymm : byte = 16
      · rw [ymm,source_ymm,coincides.ymm]
      · by_cases zmm : byte = 32
        · rw [zmm,source_zmm,coincides.zmm]
        · rw [source_layout row byte ymm zmm]
    exact ⟨own,own.trans (coincides.highs row byte)⟩
  · intro same
    refine ⟨?_,?_,?_⟩
    · intro row
      rw [← source_ymm,(same row 16).1]
    · intro row
      rw [← source_zmm,(same row 32).1]
    · exact fun row byte => (same row byte).1.symm.trans (same row byte).2

theorem importsLayout_reads (state : VecRegsState) (layout : ImportsLayout state) (row : Fin 16) (byte : Fin 64) :
    state.xsave (source row byte) = state.xsave (layoutByte (low row) byte) ∧
      state.xsave (source row byte) = state.xsave (layoutByte (high row) byte) := by
  obtain ⟨imported,ran,imports⟩ := importData_imports state
  obtain ⟨other,again,same⟩ := layout
  obtain rfl : imported = other := Except.ok.inj (ran.symm.trans again)
  exact ⟨(imports.lows row byte).symm.trans (same (low row) byte),
    (imports.highs row byte).symm.trans (same (high row) byte)⟩

/-- The layout is imported only where the bytes beside it happen to be the same. -/
theorem importsLayout_iff (state : VecRegsState) : ImportsLayout state ↔ Coincides state.xsave := by
  rw [coincides_iff]
  constructor
  · exact importsLayout_reads state
  · intro same
    obtain ⟨imported,ran,imports⟩ := importData_imports state
    refine ⟨imported,ran,?_⟩
    intro reg byte
    obtain ⟨row,rfl | rfl⟩ := low_or_high reg
    · rw [imports.lows,(same row byte).1]
    · rw [imports.highs,(same row byte).2]

def ymmHigh : VecRegsState := fun i => if i.val = 576 then 1 else 0

theorem ymmHigh_misread : ¬ ImportsLayout ymmHigh := by
  intro layout
  have same := (importsLayout_reads ymmHigh layout 0 16).1
  revert same
  decide

end Zofi.VectorImport
