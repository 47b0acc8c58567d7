import Zofi.VectorImport

/-! exportData() behind importData(): it leaves the raw buffer alone, and carries no change of
the copy through another import. -/
namespace Zofi.VectorExport
open CopyLoop Sys Model.Utils Model.XSave Semantics.Layout RegisterFlip VectorImport

/-- Every write of the export puts back what its place already holds. -/
theorem exportData_unchanged (state imported : VecRegsState) (ran : state.importData = .ok imported) :
    imported.exportData = .ok imported := by
  obtain rfl : copyAll state importLoop = imported := Except.ok.inj ((importData_loop state).symm.trans ran)
  rw [exportData_loop,copyAll_same]
  intro places member
  obtain ⟨index,_,rfl⟩ := List.mem_map.mp member
  exact (cell_home state index).symm

theorem importData_exportData_frame (state : VecRegsState) :
    ∃ imported exported, state.importData = .ok imported ∧ imported.exportData = .ok exported ∧
      exported.xsave = state.xsave := by
  obtain ⟨imported,ran,imports⟩ := importData_imports state
  exact ⟨imported,imported,ran,exportData_unchanged state imported ran,imports.xsave⟩

def row (reg : Fin 32) : Fin 16 := ⟨reg.val % 16,Nat.mod_lt _ (by decide)⟩

theorem row_low (first : Fin 16) : row (low first) = first := Fin.ext (Nat.mod_eq_of_lt first.isLt)

theorem row_high (first : Fin 16) : row (high first) = first := by
  apply Fin.ext
  change (first.val + 16) % 16 = first.val
  omega

theorem Imports.cell {raw : Image sizeofXSave} {imported : VecRegsState} (imports : Imports raw imported)
    (reg : Fin 32) (byte : Fin 64) : imported (cell (reg,byte)) = raw (source (row reg) byte) := by
  obtain ⟨first,rfl | rfl⟩ := low_or_high reg
  · rw [imports.lows,row_low]
  · rw [imports.highs,row_high]

def setCell (state : VecRegsState) (reg : Fin 32) (byte : Fin 64) (value : Byte) : VecRegsState :=
  Function.update state (cell (reg,byte)) value

/-- A byte of the copy that is replaced, exported and imported again is the one byte that has
changed, and the only byte of the raw buffer that has is its place in the layout. -/
def RoundTrips (state : VecRegsState) (reg : Fin 32) (byte : Fin 64) (value : Byte) : Prop :=
  ∃ imported exported again, state.importData = .ok imported ∧
    (setCell imported reg byte value).exportData = .ok exported ∧ exported.importData = .ok again ∧
    (∀ index, again (cell index) = setCell imported reg byte value (cell index)) ∧
    ∀ i, i ≠ layoutByte reg byte → exported.xsave i = state.xsave i

theorem cell_injective : Function.Injective cell := by
  intro one two same
  obtain ⟨reg,byte⟩ := one
  obtain ⟨reg',byte'⟩ := two
  have equal := congrArg Fin.val same
  simp only [cell,zmm,zmmBytes] at equal
  have regs : reg.val = reg'.val := by omega
  have bytes : byte.val = byte'.val := by omega
  rw [Fin.ext regs,Fin.ext bytes]

theorem low_ne_high (one two : Fin 16) : low one ≠ high two := by
  intro same
  have equal := congrArg Fin.val same
  simp only [low,high,Fin.val_castLE] at equal
  omega

theorem setCell_other (state : VecRegsState) (reg other : Fin 32) (byte : Fin 64) (value : Byte) (apart : other ≠ reg) :
    setCell state reg byte value (cell (other,byte)) = state (cell (other,byte)) :=
  Function.update_of_ne (fun same => apart (congrArg Prod.fst (cell_injective same))) _ _

theorem setCell_same (state : VecRegsState) (reg : Fin 32) (byte : Fin 64) (value : Byte) :
    setCell state reg byte value (cell (reg,byte)) = value := Function.update_self _ _ _

/-- Whatever is exported, two registers of a row are imported alike, and one of them still holds
the old byte. -/
theorem roundTrips_iff (state : VecRegsState) (reg : Fin 32) (byte : Fin 64) (value : Byte) :
    RoundTrips state reg byte value ↔ value = state.xsave (source (row reg) byte) := by
  obtain ⟨imported,ran,imports⟩ := importData_imports state
  constructor
  · rintro ⟨other,exported,again,first,_,second,same,_⟩
    obtain rfl : imported = other := Except.ok.inj (ran.symm.trans first)
    obtain ⟨_,ran',imports'⟩ := importData_imports exported
    obtain rfl := Except.ok.inj (ran'.symm.trans second)
    have own := (same (reg,byte)).trans (setCell_same imported reg byte value)
    obtain ⟨first,rfl | rfl⟩ := low_or_high reg
    · have mate := (same (high first,byte)).trans (setCell_other imported _ _ byte value (low_ne_high _ _).symm)
      rw [← own,imports'.lows,← imports'.highs,mate,imports.highs,row_low]
    · have mate := (same (low first,byte)).trans (setCell_other imported _ _ byte value (low_ne_high _ _))
      rw [← own,imports'.highs,← imports'.lows,mate,imports.lows,row_high]
  · rintro rfl
    have kept : setCell imported reg byte (state.xsave (source (row reg) byte)) = imported := by
      rw [← Imports.cell imports]
      exact Function.update_eq_self _ _
    obtain ⟨again,ran',imports'⟩ := importData_imports imported
    rw [imports.xsave] at imports'
    refine ⟨imported,imported,again,ran,?_,ran',?_,?_⟩
    · rw [kept]
      exact exportData_unchanged state imported ran
    · rintro ⟨other,place⟩
      rw [kept,Imports.cell imports',Imports.cell imports]
    · exact fun i _ => congrFun imports.xsave i

def GivesBack (state : VecRegsState) : Prop :=
  ∃ exported again, state.exportData = .ok exported ∧ exported.importData = .ok again ∧
    ∀ index, again (cell index) = state (cell index)

/-- The array holds one byte for each place that two of its bytes share. -/
structure Mirrors (state : VecRegsState) : Prop where
  rows : ∀ row byte, state (cell (high row,byte)) = state (cell (low row,byte))
  ymm : ∀ row next : Fin 16, next.val = row.val + 1 → state (cell (low row,16)) = state (cell (low next,0))

theorem source_shared (one two : Fin 16) (byte other : Fin 64) (same : source one byte = source two other) :
    (one = two ∧ byte = other) ∨ (byte = 16 ∧ other = 0 ∧ two.val = one.val + 1) ∨
      (byte = 0 ∧ other = 16 ∧ one.val = two.val + 1) := by
  have sixteen : (16 : Fin 64).val = 16 := rfl
  have zero : (0 : Fin 64).val = 0 := rfl
  have equal := congrArg Fin.val same
  simp only [Fin.ext_iff,sixteen,zero]
  unfold source at equal
  split_ifs at equal <;> simp only at equal <;> omega

theorem home_source (row : Fin 16) (byte : Fin 64) : (home (low row,byte)).val = (source row byte).val := by
  rw [home_low]
  rfl

theorem home_low_ne_cell (row : Fin 16) (byte : Fin 64) (index : Index) : home (low row,byte) ≠ cell index := by
  intro same
  have before := (source row byte).isLt
  rw [← home_source,same] at before
  exact absurd before (cell_behind index).not_gt

theorem exportLoop_consistent (state : VecRegsState) (mirrors : Mirrors state) : Consistent state exportLoop := by
  constructor
  · intro one first two second same
    obtain ⟨⟨reg,byte⟩,_,rfl⟩ := List.mem_map.mp first
    obtain ⟨⟨reg',byte'⟩,_,rfl⟩ := List.mem_map.mp second
    have same : home (reg,byte) = home (reg',byte') := same
    change state (cell (reg,byte)) = state (cell (reg',byte'))
    obtain ⟨row,rfl | rfl⟩ := low_or_high reg <;> obtain ⟨row',rfl | rfl⟩ := low_or_high reg'
    · have shared : source row byte = source row' byte' := by
        apply Fin.ext
        rw [← home_source,← home_source,same]
      obtain ⟨rfl,rfl⟩ | ⟨rfl,rfl,next⟩ | ⟨rfl,rfl,next⟩ := source_shared row row' byte byte' shared
      · rfl
      · exact mirrors.ymm row row' next
      · exact (mirrors.ymm row' row next).symm
    · rw [home_high] at same
      exact absurd same (home_low_ne_cell row byte _)
    · rw [home_high] at same
      exact absurd same.symm (home_low_ne_cell row' byte' _)
    · rw [home_high,home_high] at same
      rw [mirrors.rows,mirrors.rows,same]
  · intro one first two second same
    obtain ⟨⟨reg,byte⟩,_,rfl⟩ := List.mem_map.mp first
    obtain ⟨⟨reg',byte'⟩,_,rfl⟩ := List.mem_map.mp second
    have same : home (reg,byte) = cell (reg',byte') := same
    change state (cell (reg,byte)) = state (cell (reg',byte'))
    obtain ⟨row,rfl | rfl⟩ := low_or_high reg
    · exact absurd same (home_low_ne_cell row byte _)
    · rw [mirrors.rows,← home_high,same]

theorem givesBack_iff (state : VecRegsState) : GivesBack state ↔ Mirrors state := by
  obtain ⟨again,ran,imports⟩ := importData_imports (copyAll state exportLoop)
  constructor
  · rintro ⟨exported,other,first,second,same⟩
    obtain rfl := Except.ok.inj ((exportData_loop state).symm.trans first)
    obtain rfl := Except.ok.inj (ran.symm.trans second)
    constructor
    · intro row byte
      rw [← same,← same,imports.lows,imports.highs]
    · intro row next follows
      have shared : source row 16 = source next 0 := by
        apply Fin.ext
        simp only [source,show (16 : Fin 64).val = 16 from rfl,show (0 : Fin 64).val = 0 from rfl,le_refl,Nat.zero_le,if_true]
        omega
      rw [← same,← same,imports.lows,imports.lows,shared]
  · intro mirrors
    have written (index : Index) : copyAll state exportLoop (home index) = state (cell index) :=
      (copyAll_consistent state exportLoop (exportLoop_consistent state mirrors) (home index,cell index)
        (List.mem_map_of_mem (mem_everyIndex index))).1
    have raw (row : Fin 16) (byte : Fin 64) :
        VecRegsState.xsave (copyAll state exportLoop) (source row byte) = state (cell (low row,byte)) := by
      rw [← written,home_low]
      rfl
    refine ⟨_,again,exportData_loop state,ran,?_⟩
    rintro ⟨reg,byte⟩
    obtain ⟨row,rfl | rfl⟩ := low_or_high reg
    · rw [imports.lows,raw]
    · rw [imports.highs,raw,mirrors.rows]

/-- A replaced byte survives only if it is the old one; an array survives only if the places that
are shared hold the same. -/
theorem export_import_iff (state array : VecRegsState) (reg : Fin 32) (byte : Fin 64) (value : Byte) :
    (RoundTrips state reg byte value ↔ value = state.xsave (source (row reg) byte)) ∧
      (GivesBack array ↔ Mirrors array) :=
  ⟨roundTrips_iff state reg byte value,givesBack_iff array⟩

theorem zmm0_change_lost : ¬ RoundTrips VecRegsState.init 0 0 1 := by
  rw [roundTrips_iff]
  decide

end Zofi.VectorExport
