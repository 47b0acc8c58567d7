import Zofi.Model.RegManip

/-! What getSelectedRegAndBit selects is a row of the register table and one of its bits. -/
namespace Zofi.Selection
open Sys Model.Utils Model.Regs Model.RegManip

def Described (reg : RegDescr) : Prop :=
  ∃ data, strToRegMap.lookup reg.name = some data ∧ reg.startBit = data.startBit ∧ reg.bits = data.bits

def AllDescribed (regs : Collected) : Prop :=
  (∀ reg ∈ regs.wRegs, Described reg) ∧ (∀ reg ∈ regs.rRegs, Described reg) ∧
    ∀ reg ∈ regs.allRegs, Described reg

theorem lookup_of_safe (name : String) (userError : Bool) (data : RegData)
    (found : getRegDataForStrSafe name userError = .ok data) : strToRegMap.lookup name = some data := by
  unfold getRegDataForStrSafe at found
  split at found
  · next row => rw [row]; exact congrArg some (Except.ok.inj found)
  · split at found <;> simp at found

theorem described_of_safe (name : String) (userError written : Bool) (data : RegData)
    (found : getRegDataForStrSafe name userError = .ok data) :
    Described ⟨name,data.startBit,data.bits,written⟩ :=
  ⟨data,lookup_of_safe name userError data found,rfl,rfl⟩

theorem append_described (regs : List RegDescr) (reg : RegDescr) (all : ∀ reg ∈ regs, Described reg)
    (one : Described reg) : ∀ other ∈ regs ++ [reg], Described other := by
  intro other member
  rcases List.mem_append.mp member with old | new
  · exact all other old
  · rw [List.mem_singleton.mp new]
    exact one

theorem collectIP_described (injectTo : String) (instr : CsInsn) (regs next : Collected)
    (all : AllDescribed regs) (ok : collectIP injectTo instr regs = .ok next) : AllDescribed next := by
  unfold collectIP at ok
  split at ok
  · obtain ⟨data,found,ok⟩ := except_bind_ok _ _ _ ok
    obtain rfl := Except.ok.inj ok
    have one := described_of_safe "rip" false false data found
    exact ⟨append_described _ _ all.1 one,append_described _ _ all.2.1 one,append_described _ _ all.2.2 one⟩
  · obtain rfl := Except.ok.inj ok
    exact all

theorem collectImplicit_described (cs : Capstone) (injectTo : String) (instr : CsInsn)
    (regs next : Collected) (all : AllDescribed regs)
    (ok : collectImplicit cs injectTo instr regs = .ok next) : AllDescribed next := by
  unfold collectImplicit at ok
  split at ok
  · obtain ⟨middle,reads,writes⟩ := except_bind_ok _ _ _ ok
    refine foldlM_ok _ AllDescribed ?_ _ _ _ (foldlM_ok _ AllDescribed ?_ _ _ _ all reads) writes
    · intro regs id next all ok
      obtain ⟨data,found,ok⟩ := except_bind_ok _ _ _ ok
      obtain rfl := Except.ok.inj ok
      exact ⟨append_described _ _ all.1 (described_of_safe _ _ true data found),all.2⟩
    · intro regs id next all ok
      obtain ⟨data,found,ok⟩ := except_bind_ok _ _ _ ok
      obtain rfl := Except.ok.inj ok
      exact ⟨all.1,append_described _ _ all.2.1 (described_of_safe _ _ false data found),all.2.2⟩
  · obtain rfl := Except.ok.inj ok
    exact all

theorem described_of_fields (name : String) (written : Bool) (startBit bits : Nat)
    (start : getStartBit name = .ok startBit) (width : getBits name = .ok bits) :
    Described ⟨name,startBit,bits,written⟩ := by
  obtain ⟨data,found,same⟩ := except_bind_ok _ _ _ start
  obtain ⟨other,found',same'⟩ := except_bind_ok _ _ _ width
  obtain rfl : data = other := Except.ok.inj (found.symm.trans found')
  obtain rfl := Except.ok.inj same
  obtain rfl := Except.ok.inj same'
  exact described_of_safe name false written data found

theorem collectOperand_described (cs : Capstone) (regs : Collected) (operand : X86Op) (next : Collected)
    (all : AllDescribed regs) (ok : collectOperand cs regs operand = .ok next) : AllDescribed next := by
  cases operand with
  | reg reg access =>
    obtain ⟨startBit,start,ok⟩ := except_bind_ok _ _ _ ok
    obtain ⟨bits,width,ok⟩ := except_bind_ok _ _ _ ok
    have one (written : Bool) := described_of_fields _ written _ _ start width
    dsimp only at ok
    split at ok
    · obtain rfl := Except.ok.inj ok
      exact ⟨append_described _ _ all.1 (one true),all.2.1,append_described _ _ all.2.2 (one true)⟩
    · split at ok
      · obtain rfl := Except.ok.inj ok
        exact ⟨all.1,append_described _ _ all.2.1 (one false),append_described _ _ all.2.2 (one false)⟩
      · obtain rfl := Except.ok.inj ok
        exact ⟨all.1,all.2.1,append_described _ _ all.2.2 (one false)⟩
  | mem segment base index =>
    refine foldlM_ok _ AllDescribed ?_ _ _ _ all ok
    intro regs reg next all ok
    dsimp only at ok
    split at ok
    · obtain rfl := Except.ok.inj ok
      exact all
    · obtain ⟨startBit,start,ok⟩ := except_bind_ok _ _ _ ok
      obtain ⟨bits,width,ok⟩ := except_bind_ok _ _ _ ok
      obtain rfl := Except.ok.inj ok
      have one := described_of_fields _ false _ _ start width
      exact ⟨all.1,append_described _ _ all.2.1 one,append_described _ _ all.2.2 one⟩
  | other =>
    obtain rfl := Except.ok.inj ok
    exact all

theorem collectExplicit_described (cs : Capstone) (injectTo : String) (instr : CsInsn)
    (regs next : Collected) (all : AllDescribed regs)
    (ok : collectExplicit cs injectTo instr regs = .ok next) : AllDescribed next := by
  unfold collectExplicit at ok
  split at ok
  · exact foldlM_ok _ AllDescribed (fun regs operand next => collectOperand_described cs regs operand next)
      _ _ _ all ok
  · obtain rfl := Except.ok.inj ok
    exact all

theorem empty_described : AllDescribed {} := by simp [AllDescribed]

theorem getInstrRegisters_described {σ : Type} (T : Tracee σ) (cs : Capstone) (opts : Options)
    (ip : BitVec 64) (regs : Collected) (s s' : σ)
    (ok : exec (getInstrRegisters T cs opts ip) s = (.ok regs,s')) : AllDescribed regs := by
  obtain ⟨childMem,_,_,ok⟩ := bind_ok _ _ _ _ _ ok
  split at ok
  · obtain ⟨rfl,_⟩ := pure_ok _ _ _ _ ok
    exact empty_described
  · obtain ⟨first,_,one,ok⟩ := bind_ok _ _ _ _ _ ok
    obtain ⟨second,_,two,ok⟩ := bind_ok _ _ _ _ _ ok
    have first := collectIP_described _ _ _ _ empty_described (lift_ok _ _ _ _ one).1
    have second := collectImplicit_described _ _ _ _ _ first (lift_ok _ _ _ _ two).1
    exact collectExplicit_described _ _ _ _ _ second (lift_ok _ _ _ _ ok).1

theorem candidates_described (opts : Options) (regs : Collected) (all : AllDescribed regs) (vec : RegsVec)
    (ok : candidates opts regs = .ok vec) : ∀ reg ∈ vec, Described reg := by
  unfold candidates at ok
  split at ok
  · obtain ⟨data,found,ok⟩ := except_bind_ok _ _ _ ok
    obtain rfl := Except.ok.inj ok
    intro reg member
    rw [List.mem_singleton.mp member]
    exact described_of_safe _ true false data found
  · obtain ⟨_,_,ok⟩ := except_bind_ok _ _ _ ok
    obtain rfl := Except.ok.inj ok
    split
    · exact all.2.2
    · split
      · exact all.2.1
      · exact all.1

theorem randSafe_below {σ : Type} (T : Tracee σ) (max value : Nat) (s s' : σ) (positive : max ≠ 0)
    (ok : exec (randSafe T max) s = (.ok value,s')) : value < max := by
  obtain ⟨drawn,_,_,ok⟩ := bind_ok _ _ _ _ _ ok
  obtain ⟨rfl,_⟩ := pure_ok _ _ _ _ ok
  rw [if_pos positive]
  exact Nat.mod_lt _ (by omega)

theorem selectedIndex_below {σ : Type} (T : Tracee σ) (opts : Options) (count index : Nat) (s s' : σ)
    (positive : count ≠ 0) (ok : exec (selectedIndex T opts count) s = (.ok index,s')) : index < count := by
  unfold selectedIndex at ok
  split at ok
  · obtain ⟨rfl,_⟩ := pure_ok _ _ _ _ ok
    omega
  · exact randSafe_below _ _ _ _ _ positive ok

theorem selectedBit_inside {σ : Type} (T : Tracee σ) (opts : Options) (from_ reg : RegDescr) (bit : Nat)
    (s s' : σ) (ok : exec (selectedBit T opts from_) s = (.ok (reg,bit,true),s')) :
    reg = from_ ∧ reg.startBit ≤ bit ∧ bit < reg.startBit + reg.bits := by
  unfold selectedBit at ok
  split at ok
  · obtain ⟨value,_,_,ok⟩ := bind_ok _ _ _ _ _ ok
    have same := (pure_ok _ _ _ _ ok).1
    simp only [Prod.mk.injEq] at same
    obtain ⟨rfl,rfl,checked⟩ := same
    exact ⟨rfl,of_decide_eq_true checked.symm⟩
  · obtain ⟨offset,_,_,ok⟩ := bind_ok _ _ _ _ _ ok
    obtain ⟨_,_,asserted,ok⟩ := bind_ok _ _ _ _ _ ok
    have same := (pure_ok _ _ _ _ ok).1
    simp only [Prod.mk.injEq,and_true] at same
    obtain ⟨rfl,rfl⟩ := same
    have range := (lift_ok _ _ _ _ asserted).1
    unfold assert at range
    split at range
    · next good => exact ⟨rfl,by simpa using good⟩
    · simp at range

theorem getSelectedRegAndBit_selected {σ : Type} (T : Tracee σ) (cs : Capstone) (opts : Options)
    (ip : BitVec 64) (reg : RegDescr) (bit : Nat) (s s' : σ)
    (ok : exec (getSelectedRegAndBit T cs opts ip) s = (.ok (reg,bit,true),s')) :
    Described reg ∧ reg.startBit ≤ bit ∧ bit < reg.startBit + reg.bits := by
  obtain ⟨regs,_,collected,ok⟩ := bind_ok _ _ _ _ _ ok
  obtain ⟨vec,_,listed,ok⟩ := bind_ok _ _ _ _ _ ok
  have described := candidates_described opts regs (getInstrRegisters_described _ _ _ _ _ _ _ collected)
    vec (lift_ok _ _ _ _ listed).1
  split at ok
  · have same := (pure_ok _ _ _ _ ok).1
    simp at same
  · next occupied =>
    obtain ⟨index,_,chosen,ok⟩ := bind_ok _ _ _ _ _ ok
    have inside : index < vec.length :=
      selectedIndex_below _ _ _ _ _ _ (fun empty => occupied (List.length_eq_zero_iff.mp empty)) chosen
    obtain ⟨rfl,range⟩ := selectedBit_inside _ _ _ _ _ _ _ ok
    refine ⟨described _ ?_,range⟩
    rw [List.getD_eq_getElem?_getD,List.getElem?_eq_getElem inside]
    exact List.getElem_mem inside

end Zofi.Selection
