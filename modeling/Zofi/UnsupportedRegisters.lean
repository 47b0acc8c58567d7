import Zofi.BitFlipRun

/-! A selected register without storage: each of the functions that could turn the flip down
looks for the storage first, and aborts. -/
namespace Zofi.UnsupportedRegisters
open Sys Model.Utils Model.AddrSpace Model.WaitStatus Model.Regs Model.RegManip Model.BitFlip Semantics.StoppedThread
open BitFlipRun VectorFlip

variable {σ : Type} {T : Tracee σ} {cs : Capstone} {opts : Options} {garbage : Scanned} {pid : Nat}
  {reg : RegDescr} {bit : Nat}

def Unsupported (name : String) : Prop := name ∈ unsupportedRegs.map Prod.fst

instance (name : String) : Decidable (Unsupported name) := inferInstanceAs (Decidable (_ ∈ _))

theorem unsupported_rows : ∀ row ∈ unsupportedRegs, strToRegMap.lookup row.1 = some row.2 ∧ row.2.regPtr = none := by
  decide +kernel

theorem unsupported_row (name : String) (unsupported : Unsupported name) :
    ∃ data, strToRegMap.lookup name = some data ∧ data.regPtr = none := by
  obtain ⟨row,member,rfl⟩ := List.mem_map.mp unsupported
  exact ⟨row.2,unsupported_rows row member⟩

def GetsTo (T : Tracee σ) (cs : Capstone) (opts : Options) (garbage : Scanned) (pid : Nat) (s : σ)
    (reg : RegDescr) (bit : Nat) (s' : σ) : Prop :=
  ∃ ip rm childAS s₁ s₂, 0 < pid ∧ exec (getProgramCounter T .init) s = (.ok (ip,rm),s₁) ∧
    exec (addressSpace T garbage) s₁ = (.ok childAS,s₂) ∧ skipsLibrary opts childAS ip = .ok false ∧
    exec (getSelectedRegAndBit T cs opts ip) s₂ = (.ok (reg,bit,true),s')

def Declined (T : Tracee σ) (cs : Capstone) (opts : Options) (garbage : Scanned) (pid : Nat) (s : σ) : Prop :=
  ∃ s', ∀ setRegs setRegSet, exec (doBitFlip {T with setRegs,setRegSet} cs opts garbage pid) s = (.ok false,s')

def Alarmed (T : Tracee σ) (s s' : σ) : Prop :=
  ∃ s₁ status, exec T.singleStep s = (.ok true,s₁) ∧ exec T.waitpid s₁ = (.ok (some status),s') ∧
    getWaitPidExitState status = .ok ⟨.stopped,sigAlrm⟩

theorem ptraceSafe_ok_iff (request : Prog Halt σ Bool) (s s' : σ) :
    exec (ptraceSafe request) s = (.ok (),s') ↔ exec request s = (.ok true,s') := by
  rw [ptraceSafe,exec_bind]
  split
  · next accepted after ran => cases accepted <;> simp [ran,fail]
  · next error after ran => simp [ran]

theorem waitpidSafe_ok_iff (wait : Prog Halt σ (Option Nat)) (status : Nat) (s s' : σ) :
    exec (waitpidSafe wait) s = (.ok status,s') ↔ exec wait s = (.ok (some status),s') := by
  rw [waitpidSafe,exec_bind]
  split
  · next reported after ran => cases reported <;> simp [ran,fail]
  · next error after ran => simp [ran]

theorem stepToNext_false_iff (s s' : σ) : exec (stepToNext T) s = (.ok false,s') ↔ Alarmed T s s' := by
  constructor
  · intro ran
    obtain ⟨_,s₁,stepped,ran⟩ := bind_ok _ _ _ _ _ ran
    obtain ⟨status,s₂,waited,ran⟩ := bind_ok _ _ _ _ _ ran
    obtain ⟨state,s₃,lifted,judged⟩ := bind_ok _ _ _ _ _ ran
    obtain ⟨decoded,rfl⟩ := lift_ok _ _ _ _ lifted
    split at judged
    · next alarm =>
      obtain ⟨_,rfl⟩ := pure_ok _ _ _ _ judged
      obtain ⟨type,val⟩ := state
      obtain ⟨rfl,rfl⟩ := alarm
      exact ⟨s₁,status,(ptraceSafe_ok_iff _ _ _).mp stepped,(waitpidSafe_ok_iff _ _ _ _).mp waited,decoded⟩
    · obtain ⟨_,_,_,returned⟩ := bind_ok _ _ _ _ _ judged
      have differs := (pure_ok _ _ _ _ returned).1
      simp at differs
  · rintro ⟨s₁,status,stepped,waited,decoded⟩
    rw [stepToNext,exec_bind_of _ _ _ _ _ ((ptraceSafe_ok_iff _ _ _).mpr stepped),
      exec_bind_of _ _ _ _ _ ((waitpidSafe_ok_iff _ _ _ _).mpr waited),exec_bind,exec_lift,decoded]
    rfl

theorem tryBitFlip_aborts (T : Tracee σ) (rm : RegisterManipulator) (name : String) (bit : Nat) (data : RegData)
    (row : strToRegMap.lookup name = some data) (null : data.regPtr = none) (result : Bool × RegisterManipulator)
    (s s' : σ) : exec (tryBitFlip T rm name bit) s ≠ (.ok result,s') := by
  intro ran
  obtain ⟨_,_,_,ran⟩ := bind_ok _ _ _ _ _ ran
  obtain ⟨imported,_,_,ran⟩ := bind_ok _ _ _ _ _ ran
  obtain ⟨_,_,contents,_⟩ := bind_ok _ _ _ _ _ ran
  have read := (lift_ok _ _ _ _ contents).1
  simp [getRegisterContents,getRegisterPtr,getRegDataForStrSafe,row,RegData.getRegPtr,null,bind,Except.bind] at read

theorem flipSelected_false_iff (T : Tracee σ) (rm : RegisterManipulator) (reg : RegDescr) (bit : Nat)
    (unsupported : Unsupported reg.name) (s s' : σ) :
    exec (flipSelected T rm reg bit) s = (.ok false,s') ↔ reg.written = true ∧ Alarmed T s s' := by
  obtain ⟨data,row,null⟩ := unsupported_row reg.name unsupported
  constructor
  · intro ran
    obtain ⟨advanced,s₁,stepped,ran⟩ := bind_ok _ _ _ _ _ ran
    cases advanced with
    | false =>
      obtain ⟨_,rfl⟩ := pure_ok _ _ _ _ ran
      unfold stepIfWritten at stepped
      split at stepped
      · next written => exact ⟨written,(stepToNext_false_iff _ _).mp stepped⟩
      · have differs := (pure_ok _ _ _ _ stepped).1
        simp at differs
    | true =>
      obtain ⟨_,_,tried,_⟩ := bind_ok _ _ _ _ _ ran
      exact absurd tried (tryBitFlip_aborts T rm reg.name bit data row null _ _ _)
  · rintro ⟨written,alarmed⟩
    have stepped : exec (stepIfWritten T reg) s = (.ok false,s') := by
      rw [stepIfWritten,if_pos written]
      exact (stepToNext_false_iff _ _).mpr alarmed
    rw [flipSelected,exec_bind_of _ _ _ _ _ stepped]
    rfl

theorem doBitFlip_from (s s' : σ) (gets : GetsTo T cs opts garbage pid s reg bit s')
    (setRegs : Image sizeofUserRegs → Prog Halt σ Bool)
    (setRegSet : Image Model.XSave.sizeofXSave → Prog Halt σ Bool) :
    ∃ rm, exec (doBitFlip {T with setRegs,setRegSet} cs opts garbage pid) s =
      exec (flipSelected {T with setRegs,setRegSet} rm reg bit) s' := by
  obtain ⟨ip,rm,childAS,s₁,s₂,live,counted,parsed,checked,selected⟩ := gets
  refine ⟨rm,?_⟩
  have asserted : exec (liftM (assert (decide (pid > 0)) "Uninitialized?") : Prog Halt σ Unit) s = (.ok (),s) := by
    rw [exec_lift,assert,if_pos (by simpa using live)]
  unfold doBitFlip
  rw [exec_bind_of _ _ _ _ _ asserted]
  refine (exec_bind_of _ _ _ _ _ counted).trans ?_
  refine (exec_bind_of _ _ _ _ _ parsed).trans ?_
  rw [exec_bind,exec_lift,checked]
  exact exec_bind_of _ _ _ _ _ selected

/-- The attempt is given up quietly exactly if the alarm goes off before the storage is looked
for. -/
theorem declined_iff (s s' : σ) (gets : GetsTo T cs opts garbage pid s reg bit s') (unsupported : Unsupported reg.name) :
    Declined T cs opts garbage pid s ↔ reg.written = true ∧ ∃ s'', Alarmed T s' s'' := by
  constructor
  · rintro ⟨s'',returns⟩
    obtain ⟨rm,run⟩ := doBitFlip_from s s' gets T.setRegs T.setRegSet
    have declined := run.symm.trans (returns T.setRegs T.setRegSet)
    obtain ⟨written,alarmed⟩ := (flipSelected_false_iff _ rm reg bit unsupported s' s'').mp declined
    exact ⟨written,s'',alarmed⟩
  · rintro ⟨written,s'',alarmed⟩
    refine ⟨s'',fun setRegs setRegSet => ?_⟩
    obtain ⟨rm,run⟩ := doBitFlip_from s s' gets setRegs setRegSet
    rw [run]
    exact (flipSelected_false_iff _ rm reg bit unsupported s' s'').mpr ⟨written,alarmed⟩

theorem mapped_counted (env : Env) : ∃ rm, exec (getProgramCounter (tracee env) .init) mapped = (.ok (0,rm),mapped) := by
  have same : getProgramCounter (tracee env) .init = getProgramCounter (tracee acceptingEnv) .init := rfl
  apply getProgramCounter_of_value
  rw [same]
  decide +kernel

theorem mapped_getsTo (env : Env) (cs : Capstone) (opts : Options) (reg : RegDescr) (bit : Nat)
    (empty : env.maps mapped.child = some []) (everywhere : opts.dontInjectToLibs = false)
    (picked : (exec (getSelectedRegAndBit (tracee env) cs opts 0) mapped).1 = .ok (reg,bit,true)) :
    ∃ m, GetsTo (tracee env) cs opts ⟨0,0,[]⟩ 7 mapped reg bit m := by
  obtain ⟨rm,counted⟩ := mapped_counted env
  have parsed : exec (addressSpace (tracee env) ⟨0,0,[]⟩) mapped = (.ok [],mapped) := by
    have opened : exec (tracee env).maps mapped = (.ok (some []),mapped) := by
      rw [← empty]
      rfl
    rw [addressSpace,exec_bind_of _ _ _ _ _ opened]
    rfl
  have checked : skipsLibrary opts [] 0 = .ok false := by rw [skipsLibrary,everywhere]; rfl
  exact ⟨_,0,rm,[],mapped,mapped,by decide,counted,parsed,checked,Prod.ext picked rfl⟩

def toCr0 : Options := {forceInjectToReg := some "cr0",forceInjectToBit := some "0"}

theorem cr0_not_declined :
    ∃ reg bit m, GetsTo (tracee acceptingEnv) noCode toCr0 ⟨0,0,[]⟩ 7 mapped reg bit m ∧ Unsupported reg.name ∧
      ¬ Declined (tracee acceptingEnv) noCode toCr0 ⟨0,0,[]⟩ 7 mapped := by
  obtain ⟨m,gets⟩ := mapped_getsTo acceptingEnv noCode toCr0 ⟨"cr0",0,64,false⟩ 0 rfl rfl (by decide +kernel)
  have unsupported : Unsupported "cr0" := by decide
  refine ⟨_,_,m,gets,unsupported,fun declined => ?_⟩
  obtain ⟨m',returns⟩ := declined
  obtain ⟨rm,run⟩ := doBitFlip_from mapped m gets (tracee acceptingEnv).setRegs (tracee acceptingEnv).setRegSet
  have gaveUp := run.symm.trans (returns _ _)
  have written := ((flipSelected_false_iff _ rm ⟨"cr0",0,64,false⟩ 0 unsupported m m').mp gaveUp).1
  cases written

def alarmingEnv : Env := {acceptingEnv with singleStep := fun child => (child,stoppedStatus sigAlrm)}

/-- `mov cr0,rax` -/
def movToCr0 : Capstone := ⟨fun _ => some ⟨[],[],[],[.reg 2 csAcWrite,.reg 1 csAcRead]⟩,fun id => ["","rax","cr0"].getD id ""⟩

theorem alarmed_declined : Declined (tracee alarmingEnv) movToCr0 {} ⟨0,0,[]⟩ 7 mapped := by
  obtain ⟨m,gets⟩ := mapped_getsTo alarmingEnv movToCr0 {} ⟨"cr0",0,64,true⟩ 0 rfl rfl (by decide +kernel)
  have decoded : getWaitPidExitState (stoppedStatus sigAlrm) = .ok ⟨.stopped,sigAlrm⟩ := by decide
  exact (declined_iff mapped m gets (by decide)).mpr ⟨rfl,_,_,_,rfl,rfl,decoded⟩

end Zofi.UnsupportedRegisters
