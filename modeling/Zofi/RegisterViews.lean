import Zofi.BitFlipRun
import Zofi.VectorExport

/-! The registers of regs.def are views of one thread: eax is part of rax, mm0 of st(0), xmm0
of zmm0. After a flip reported as done, a fresh import shows every register as it was but for
the bits that are views of the flipped one. -/
namespace Zofi.RegisterViews
open ByteImage Sys Model.Utils Model.XSave Model.Regs Model.RegManip
open Semantics.StoppedThread RegisterFlip VectorFlip VectorImport VectorExport BitFlipRun

abbrev Place := (Fin sizeofUserRegs ⊕ Fin sizeofXSave) × Fin 8

def viewed (rm : RegisterManipulator) (reg : String) (bit : Nat) : Except Halt Bool := do
  return (← getRegisterContents rm reg bit).getLsbD (bit % 8)

theorem bit_low (bit : Nat) : bit % 8 < 8 := Nat.mod_lt _ (by decide)

theorem byte_low (offset : Nat) : (offset - sizeofXSave) % 64 < 64 := Nat.mod_lt _ (by decide)

theorem line_low (offset : Nat) (inside : offset < sizeofVecRegsState) : (offset - sizeofXSave) / 64 < 32 := by
  have size : sizeofVecRegsState = sizeofXSave + 2048 := rfl
  omega

def copied (offset bit : Nat) (inside : offset + bit / 8 < sizeofVecRegsState) : Place :=
  (.inr (source (row ⟨(offset + bit / 8 - sizeofXSave) / 64,line_low _ inside⟩)
    ⟨(offset + bit / 8 - sizeofXSave) % 64,byte_low _⟩),⟨bit % 8,bit_low bit⟩)

def origin (pointer : RegPtr) (bit : Nat) : Option Place :=
  match pointer with
  | .gpregs _ => location pointer bit
  | .vecregs offset =>
    if offset + bit / 8 < sizeofXSave then location pointer bit
    else if inside : offset + bit / 8 < sizeofVecRegsState then some (copied offset bit inside) else none

theorem exec_importRegistersTo_imports (env : Env) (rm : RegisterManipulator) (m : Machine) :
    ∃ vecregs, exec (importRegistersTo (tracee env) rm) m = (.ok ⟨m.child.gpregs,vecregs⟩,m) ∧
      Imports m.child.xsave vecregs := by
  obtain ⟨imported,ran,imports⟩ := importData_imports (rm.vecregs.setXsave m.child.xsave)
  rw [xsave_setXsave] at imports
  refine ⟨imported,?_,imports⟩
  simp only [importRegistersTo,tracee,exec_bind,exec_get,exec_pure,exec_lift,ran]

theorem copied_byte (raw : Image sizeofXSave) (imported : VecRegsState) (imports : Imports raw imported)
    (offset : Nat) (inside : offset < sizeofVecRegsState) (reg : Fin 32) (byte : Fin 64) (place : offset = sizeofXSave + 64 * reg + byte) :
    imported ⟨offset,inside⟩ = raw (source (row reg) byte) := by
  rw [← VectorExport.Imports.cell imports reg byte]
  refine congrArg imported (Fin.ext ?_)
  simp only [VectorImport.cell,zmm,zmmBytes]
  omega

theorem viewed_imported (child : Child) (vecregs : VecRegsState) (imports : Imports child.xsave vecregs) (reg : String)
    (data : RegData) (pointer : RegPtr) (entry : strToRegMap.lookup reg = some data)
    (stored : data.regPtr = some pointer) (bit : Nat) (inside : Inside pointer bit) :
    ∃ place, origin pointer bit = some place ∧
      viewed ⟨child.gpregs,vecregs⟩ reg bit = .ok (ByteImage.bit child.registers place) := by
  have found : getRegDataForStrSafe reg = .ok data := by simp only [getRegDataForStrSafe,entry]
  have field : data.getRegPtr = .ok pointer := by simp only [RegData.getRegPtr,stored]
  have contents : viewed ⟨child.gpregs,vecregs⟩ reg bit =
      (RegisterManipulator.load ⟨child.gpregs,vecregs⟩ (pointer.add (bit / 8))).map fun byte =>
        byte.getLsbD (bit % 8) := by
    simp only [viewed,getRegisterContents,getRegisterPtr,found,field,bind,Except.bind,pure,Except.pure]
    cases RegisterManipulator.load ⟨child.gpregs,vecregs⟩ (pointer.add (bit / 8)) <;> rfl
  rw [contents]
  cases pointer with
  | gpregs offset =>
    have inside : offset + bit / 8 < sizeofUserRegs := inside
    refine ⟨_,dif_pos inside,?_⟩
    simp only [RegPtr.add,RegisterManipulator.load,read_inside _ _ inside]
    rfl
  | vecregs offset =>
    have inside : offset + bit / 8 < sizeofVecRegsState := inside
    simp only [RegPtr.add,RegisterManipulator.load,read_inside _ _ inside,origin]
    by_cases before : offset + bit / 8 < sizeofXSave
    · refine ⟨_,by rw [if_pos before]; exact dif_pos before,?_⟩
      have same := congrFun imports.xsave ⟨offset + bit / 8,before⟩
      change Except.ok ((vecregs.xsave ⟨offset + bit / 8,before⟩).getLsbD _) = _
      rw [same]
      rfl
    · refine ⟨_,by rw [if_neg before,dif_pos inside],?_⟩
      have byte := copied_byte child.xsave vecregs imports (offset + bit / 8) inside
        ⟨_,line_low (offset + bit / 8) inside⟩ ⟨_,byte_low (offset + bit / 8)⟩ (by dsimp only; omega)
      rw [byte]
      rfl

theorem bit_flipped (registers : Fin sizeofUserRegs ⊕ Fin sizeofXSave → Byte) (pointer : RegPtr) (bit : Nat) (place : Place) :
    ByteImage.bit (flipped registers pointer bit) place =
      (ByteImage.bit registers place ^^ decide (location pointer bit = some place)) := by
  rw [flipped]
  cases location pointer bit with
  | none => simp
  | some target => simp only [bit_complement,Option.some.injEq,eq_comm]

/-! Which bits of the table have one origin. -/

def raw (data : RegData) : Bool :=
  match data.regPtr with
  | some (.vecregs offset) => decide (offset < sizeofXSave)
  | _ => false

/-- The row is in front of the legacy xmm registers, one of the opmask registers, or a whole row of the copy. -/
def slotted (data : RegData) : Bool :=
  match data.regPtr with
  | some (.vecregs offset) =>
    if offset < sizeofXSave then
      decide (8 * offset + data.startBit + data.bits ≤ 8 * legacyXmm0to15) ||
        (decide (opmask0to7 ≤ offset) && (offset - opmask0to7) % 8 == 0 && decide (data.startBit + data.bits ≤ 64) &&
          decide (offset < opmask0to7 + 64))
    else (offset - sizeofXSave) % 64 == 0 && decide (data.startBit + data.bits ≤ 512)
  | _ => true

theorem table_slotted : ∀ entry ∈ strToRegMap, slotted entry.2 = true := by decide +kernel

def apart (one two : RegData) : Bool :=
  match one.regPtr,two.regPtr with
  | some (.vecregs first),some (.vecregs second) =>
    first == second || decide (8 * first + one.startBit + one.bits ≤ 8 * second) ||
      decide (8 * second + two.startBit + two.bits ≤ 8 * first)
  | _,_ => true

theorem raw_apart : ∀ one ∈ strToRegMap.filter (raw ·.2), ∀ two ∈ strToRegMap.filter (raw ·.2),
    apart one.2 two.2 = true := by decide +kernel

/-- A flip of the one bit shows in the other: they are the same bit of one storage, or byte 0
of k0, which importData() reads again as byte 32 of zmm15 and of zmm31. What lies in the
serialised copy itself shows nowhere. -/
def Aliases (data : RegData) (bit : Nat) (other : RegData) (shown : Nat) : Prop :=
  serialised data = false ∧ (data.regPtr = other.regPtr ∧ bit = shown ∨
    data.regPtr = some (.vecregs opmask0to7) ∧ bit < 8 ∧ shown = 256 + bit ∧
      (other.regPtr = some (.vecregs (zmm 15 0)) ∨ other.regPtr = some (.vecregs (zmm 31 0))))

instance (data : RegData) (bit : Nat) (other : RegData) (shown : Nat) : Decidable (Aliases data bit other shown) :=
  inferInstanceAs (Decidable (_ ∧ (_ ∨ _)))

theorem lookup_mem (reg : String) (data : RegData) (entry : strToRegMap.lookup reg = some data) :
    (reg,data) ∈ strToRegMap := by
  obtain ⟨before,after,split,_⟩ := List.lookup_eq_some_iff.mp entry
  rw [split]
  simp

theorem general_aliases (reg other : String) (data shows : RegData) (entry : strToRegMap.lookup reg = some data)
    (otherEntry : strToRegMap.lookup other = some shows) (offset second bit shown : Nat)
    (stored : data.regPtr = some (.gpregs offset)) (otherStored : shows.regPtr = some (.gpregs second))
    (range : bit < data.startBit + data.bits) (otherRange : shown < shows.startBit + shows.bits) (place : Place)
    (found : origin (.gpregs second) shown = some place) :
    location (.gpregs offset) bit = some place ↔ Aliases data bit shows shown := by
  have one := row_fits reg data entry
  have two := row_fits other shows otherEntry
  have inside : offset + bit / 8 < sizeofUserRegs := row_inside data _ bit one stored range
  have otherInside : second + shown / 8 < sizeofUserRegs := row_inside shows _ shown two otherStored otherRange
  rw [origin,location,dif_pos otherInside] at found
  rw [← Option.some.inj found,location,dif_pos inside]
  rw [fits,stored] at one
  rw [fits,otherStored] at two
  simp only [Bool.and_eq_true,beq_iff_eq,decide_eq_true_eq] at one two
  simp only [Aliases,serialised,stored,otherStored,Option.some.injEq,Prod.mk.injEq,Sum.inl.injEq,Fin.mk.injEq,
    RegPtr.gpregs.injEq,reduceCtorEq,false_and,or_false,true_and]
  omega

theorem raw_aliases (reg other : String) (data shows : RegData) (entry : strToRegMap.lookup reg = some data)
    (otherEntry : strToRegMap.lookup other = some shows) (offset second bit shown : Nat)
    (stored : data.regPtr = some (.vecregs offset)) (otherStored : shows.regPtr = some (.vecregs second))
    (direct : offset < sizeofXSave) (otherDirect : second < sizeofXSave)
    (range : bit < data.startBit + data.bits) (otherRange : shown < shows.startBit + shows.bits) (place : Place)
    (found : origin (.vecregs second) shown = some place) :
    location (.vecregs offset) bit = some place ↔ Aliases data bit shows shown := by
  have one := row_fits reg data entry
  have two := row_fits other shows otherEntry
  rw [fits,stored] at one
  rw [fits,otherStored] at two
  dsimp only at one two
  rw [if_neg (by omega),decide_eq_true_eq] at one two
  have inside : offset + bit / 8 < sizeofXSave := by omega
  have otherInside : second + shown / 8 < sizeofXSave := by omega
  have rows := raw_apart (reg,data) (List.mem_filter.mpr ⟨lookup_mem reg data entry,by simp [raw,stored,direct]⟩)
    (other,shows) (List.mem_filter.mpr ⟨lookup_mem other shows otherEntry,by simp [raw,otherStored,otherDirect]⟩)
  simp only [apart,stored,otherStored,Bool.or_eq_true,beq_iff_eq,decide_eq_true_eq] at rows
  rw [origin,if_pos otherInside,location,dif_pos otherInside] at found
  rw [← Option.some.inj found,location,dif_pos inside]
  have copies : ∀ row, zmm row 0 ≠ second := by
    intro row
    simp only [zmm]
    omega
  have whole : ¬ sizeofXSave ≤ offset := by omega
  simp only [Aliases,serialised,stored,otherStored,Option.some.injEq,Prod.mk.injEq,Sum.inr.injEq,Fin.mk.injEq,
    RegPtr.vecregs.injEq,(copies _).symm,or_false,and_false,whole,decide_false,true_and]
  omega

/-- The copy is imported from the areas of xmm, ymm and zmm and from the byte behind each, which is
k0's behind the area of ymm. -/
theorem source_outside (row : Fin 16) (byte : Fin 64) (place : Nat) (outside : place < 160 ∨ 832 ≤ place ∧ place < 896) :
    place = (source row byte).val ↔ place = 832 ∧ row.val = 15 ∧ byte.val = 32 := by
  rw [source]
  split_ifs <;> dsimp only <;> omega

theorem copied_aliases (reg other : String) (data shows : RegData) (entry : strToRegMap.lookup reg = some data)
    (otherEntry : strToRegMap.lookup other = some shows) (offset second bit shown : Nat)
    (stored : data.regPtr = some (.vecregs offset)) (otherStored : shows.regPtr = some (.vecregs second))
    (direct : offset < sizeofXSave) (behind : sizeofXSave ≤ second)
    (range : bit < data.startBit + data.bits) (otherRange : shown < shows.startBit + shows.bits) (place : Place)
    (found : origin (.vecregs second) shown = some place) :
    location (.vecregs offset) bit = some place ↔ Aliases data bit shows shown := by
  have one := table_slotted _ (lookup_mem reg data entry)
  have two := table_slotted _ (lookup_mem other shows otherEntry)
  have room := row_fits other shows otherEntry
  have areas : legacyXmm0to15 = 160 ∧ opmask0to7 = 832 ∧ sizeofXSave = 2432 := by decide
  have size : sizeofVecRegsState = 4480 := rfl
  rw [fits,otherStored] at room
  dsimp only at room
  rw [if_pos behind,decide_eq_true_eq] at room
  simp only [slotted,stored,otherStored,if_pos direct,if_neg (show ¬ second < sizeofXSave by omega),
    Bool.and_eq_true,Bool.or_eq_true,beq_iff_eq,decide_eq_true_eq] at one two
  have inside : offset + bit / 8 < sizeofXSave := by omega
  have otherInside : second + shown / 8 < sizeofVecRegsState := by omega
  rw [origin,if_neg (by omega),dif_pos otherInside] at found
  rw [← Option.some.inj found,location,dif_pos inside]
  have whole : ¬ sizeofXSave ≤ offset := by omega
  have differ : offset ≠ second := by omega
  have place : (second + shown / 8 - sizeofXSave) / 64 = (second - sizeofXSave) / 64 ∧
      (second + shown / 8 - sizeofXSave) % 64 = shown / 8 := by omega
  have byte := source_outside (row ⟨_,line_low (second + shown / 8) otherInside⟩)
    ⟨_,byte_low (second + shown / 8)⟩ (offset + bit / 8) (by omega)
  simp only [Aliases,serialised,stored,otherStored,Option.some.injEq,Prod.mk.injEq,Sum.inr.injEq,
    RegPtr.vecregs.injEq,whole,decide_false,differ,true_and,false_and,false_or,copied,Fin.ext_iff]
  rw [byte]
  dsimp only [row,zmm,zmmBytes]
  rw [place.1,place.2]
  omega

def general : RegPtr → Bool
  | .gpregs _ => true
  | .vecregs _ => false

theorem location_general (pointer : RegPtr) (bit : Nat) (place : Place) (found : location pointer bit = some place) :
    place.1.isLeft = general pointer := by
  cases pointer <;> simp only [location] at found <;> split_ifs at found <;>
    rw [← Option.some.inj found] <;> rfl

theorem origin_general (pointer : RegPtr) (bit : Nat) (place : Place) (found : origin pointer bit = some place) :
    place.1.isLeft = general pointer := by
  cases pointer with
  | gpregs offset => exact location_general _ bit place found
  | vecregs offset =>
    rw [origin] at found
    split_ifs at found
    · exact location_general _ bit place found
    · rw [← Option.some.inj found]
      rfl

theorem aliases_general (data shows : RegData) (pointer second : RegPtr) (bit shown : Nat)
    (stored : data.regPtr = some pointer) (otherStored : shows.regPtr = some second)
    (aliases : Aliases data bit shows shown) : general pointer = general second := by
  rcases aliases with ⟨_,⟨same,_⟩ | ⟨mask,_,_,copy⟩⟩
  · rw [stored,otherStored,Option.some.injEq] at same
    rw [same]
  · rw [stored,Option.some.injEq] at mask
    rw [otherStored,Option.some.injEq,Option.some.injEq] at copy
    rcases copy with rfl | rfl <;> rw [mask] <;> rfl

theorem location_aliases (reg other : String) (data shows : RegData) (entry : strToRegMap.lookup reg = some data)
    (otherEntry : strToRegMap.lookup other = some shows) (pointer second : RegPtr) (bit shown : Nat)
    (stored : data.regPtr = some pointer) (otherStored : shows.regPtr = some second)
    (range : bit < data.startBit + data.bits) (otherRange : shown < shows.startBit + shows.bits) (place : Place)
    (found : origin second shown = some place) :
    location pointer bit = some place ↔ Aliases data bit shows shown := by
  by_cases kind : general pointer = general second
  · cases pointer with
    | gpregs offset =>
      cases second with
      | vecregs second => simp [general] at kind
      | gpregs second =>
        exact general_aliases reg other data shows entry otherEntry offset second bit shown stored otherStored
          range otherRange place found
    | vecregs offset =>
      cases second with
      | gpregs second => simp [general] at kind
      | vecregs second =>
        by_cases direct : offset < sizeofXSave
        · by_cases otherDirect : second < sizeofXSave
          · exact raw_aliases reg other data shows entry otherEntry offset second bit shown stored otherStored direct
              otherDirect range otherRange place found
          · exact copied_aliases reg other data shows entry otherEntry offset second bit shown stored otherStored direct
              (by omega) range otherRange place found
        · have absent : location (.vecregs offset) bit = none := dif_neg (by omega)
          have whole : serialised data = true := by
            rw [serialised,stored]
            exact decide_eq_true (by omega)
          rw [absent,Aliases,whole]
          simp
  · constructor
    · intro reaches
      exact absurd ((location_general pointer bit place reaches).symm.trans (origin_general second shown place found)) kind
    · intro aliases
      exact absurd (aliases_general data shows pointer second bit shown stored otherStored aliases) kind

/-- After a flip that is reported as done, every bit of every register of the table reads as
before, but for those that alias the flipped one, which read complemented. -/
theorem tryBitFlip_viewed (env : Env) (rm next : RegisterManipulator) (m m' : Machine) (reg other : String)
    (data shows : RegData) (entry : strToRegMap.lookup reg = some data) (otherEntry : strToRegMap.lookup other = some shows)
    (supported : data.regPtr.isSome) (otherSupported : shows.regPtr.isSome) (bit shown : Nat)
    (range : bit < data.startBit + data.bits) (otherRange : shown < shows.startBit + shows.bits)
    (flips : exec (tryBitFlip (tracee env) rm reg bit) m = (.ok (true,next),m')) (first second : RegisterManipulator) :
    ∃ before after value, exec (importRegistersTo (tracee env) first) m = (.ok before,m) ∧
      exec (importRegistersTo (tracee env) second) m' = (.ok after,m') ∧ viewed before other shown = .ok value ∧
      viewed after other shown = .ok (value ^^ decide (Aliases data bit shows shown)) := by
  obtain ⟨pointer,stored⟩ := Option.isSome_iff_exists.mp supported
  obtain ⟨otherPointer,otherStored⟩ := Option.isSome_iff_exists.mp otherSupported
  have inside := row_inside data pointer bit (row_fits reg data entry) stored range
  have otherInside := row_inside shows otherPointer shown (row_fits other shows otherEntry) otherStored otherRange
  obtain ⟨changed,_⟩ := tryBitFlip_true env rm next m m' reg bit data pointer entry stored inside flips
  obtain ⟨before,imported,imports⟩ := exec_importRegistersTo_imports env first m
  obtain ⟨after,again,reimports⟩ := exec_importRegistersTo_imports env second m'
  obtain ⟨place,found,old⟩ := viewed_imported m.child before imports other shows otherPointer otherEntry otherStored
    shown otherInside
  obtain ⟨same,refound,new⟩ := viewed_imported m'.child after reimports other shows otherPointer otherEntry otherStored
    shown otherInside
  obtain rfl : place = same := Option.some.inj (found.symm.trans refound)
  refine ⟨_,_,_,imported,again,old,?_⟩
  rw [new,changed,bit_flipped,decide_eq_decide.mpr (location_aliases reg other data shows entry otherEntry pointer
    otherPointer bit shown stored otherStored range otherRange place found)]

def k0 : RegData := ⟨some (.vecregs opmask0to7),0,64⟩

theorem k0_flips : ∃ next m', exec (tryBitFlip (tracee acceptingEnv) .init "k0" 3) idle = (.ok (true,next),m') := by
  obtain ⟨next,_,ran⟩ := exec_tryBitFlip acceptingEnv .init idle "k0" 3 k0 (.vecregs opmask0to7) (by decide +kernel) rfl
    (show opmask0to7 + 3 / 8 < sizeofVecRegsState by decide)
  refine ⟨next,installed idle next,?_⟩
  rw [ran,exec_bind_of _ _ _ _ _ (exec_exportRegisters acceptingEnv next idle ⟨rfl,rfl⟩)]
  rfl

/-- A flip in the opmask register k0 also shows in zmm15, which shares nothing with it. -/
theorem k0_shown_in_zmm15 : ∃ next m' before after value,
    exec (tryBitFlip (tracee acceptingEnv) .init "k0" 3) idle = (.ok (true,next),m') ∧
      exec (importRegistersTo (tracee acceptingEnv) .init) idle = (.ok before,idle) ∧
      exec (importRegistersTo (tracee acceptingEnv) .init) m' = (.ok after,m') ∧
      viewed before "zmm15" 259 = .ok value ∧ viewed after "zmm15" 259 = .ok !value := by
  obtain ⟨next,m',flips⟩ := k0_flips
  obtain ⟨before,after,value,imported,again,old,new⟩ := tryBitFlip_viewed acceptingEnv .init next idle m' "k0" "zmm15" k0
    (vec (zmm 15 0) 0 512) (by decide +kernel) (by decide +kernel) rfl rfl 3 259 (by decide) (by decide) flips .init .init
  refine ⟨next,m',before,after,value,flips,imported,again,old,?_⟩
  rw [new,show decide (Aliases k0 3 (vec (zmm 15 0) 0 512) 259) = true by decide,Bool.xor_true]

end Zofi.RegisterViews
