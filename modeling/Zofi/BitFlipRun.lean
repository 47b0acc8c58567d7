import Zofi.BitFlipFrame
import Zofi.Selection
import Zofi.VectorFlip

/-! A whole injection into the stopped thread: where doBitFlip succeeds on a register of the
thread itself, the thread goes on with that one bit complemented, and where it does not
succeed the thread has not been continued. -/
namespace Zofi.BitFlipRun
open ByteImage Sys Model.Utils Model.XSave Model.Regs Model.WaitStatus Model.RegManip Model.BitFlip
open Semantics.StoppedThread RegisterFlip Selection VectorFlip BitFlipFrame

/-- The row's pointer is null, or all its bits are inside one object: a general register
within the eight bytes of its field, a vector register within the raw buffer or the copy. -/
def fits (data : RegData) : Bool :=
  match data.regPtr with
  | none => true
  | some (.gpregs offset) =>
    offset % 8 == 0 && decide (offset < sizeofUserRegs) && decide (data.startBit + data.bits ≤ 64)
  | some (.vecregs offset) =>
    if sizeofXSave ≤ offset then decide (8 * offset + data.startBit + data.bits ≤ 8 * sizeofVecRegsState)
    else decide (8 * offset + data.startBit + data.bits ≤ 8 * sizeofXSave)

theorem table_fits : ∀ row ∈ strToRegMap, fits row.2 = true := by decide +kernel

theorem row_fits (name : String) (data : RegData) (row : strToRegMap.lookup name = some data) :
    fits data = true := by
  obtain ⟨before,after,split,_⟩ := List.lookup_eq_some_iff.mp row
  exact table_fits (name,data) (by rw [split]; simp)

theorem row_inside (data : RegData) (pointer : RegPtr) (bit : Nat) (room : fits data = true)
    (stored : data.regPtr = some pointer) (range : bit < data.startBit + data.bits) :
    Inside pointer bit := by
  rw [fits,stored] at room
  cases pointer with
  | gpregs offset =>
    simp only [Bool.and_eq_true,beq_iff_eq,decide_eq_true_eq] at room
    have size : sizeofUserRegs = 216 := rfl
    change offset + bit / 8 < sizeofUserRegs
    omega
  | vecregs offset =>
    have size : sizeofXSave ≤ sizeofVecRegsState := by decide
    change offset + bit / 8 < sizeofVecRegsState
    dsimp only at room
    split at room <;> (have room := of_decide_eq_true room; omega)

theorem row_located (data : RegData) (pointer : RegPtr) (bit : Nat) (room : fits data = true)
    (stored : data.regPtr = some pointer) (direct : serialised data = false)
    (range : bit < data.startBit + data.bits) : ∃ place, location pointer bit = some place := by
  have inside := row_inside data pointer bit room stored range
  cases pointer with
  | gpregs offset => exact ⟨_,dif_pos inside⟩
  | vecregs offset =>
    have before : ¬ sizeofXSave ≤ offset := by simpa [serialised,stored] using direct
    rw [fits,stored] at room
    dsimp only at room
    rw [if_neg before] at room
    have room := of_decide_eq_true room
    exact ⟨_,dif_pos (by omega)⟩

theorem row_containing (data : RegData) (offset bit : Nat) (room : fits data = true)
    (stored : data.regPtr = some (.gpregs offset)) (range : bit < data.startBit + data.bits) :
    bit < 64 ∧ ∃ field : UserReg, offset = field.offset := by
  rw [fits,stored] at room
  simp only [Bool.and_eq_true,beq_iff_eq,decide_eq_true_eq] at room
  refine ⟨by omega,?_⟩
  have size : sizeofUserRegs = 8 * 27 := rfl
  have fields : ∀ index : Fin 27, 8 * index.val = (UserReg.ofNat index).offset := by decide
  exact ⟨UserReg.ofNat (offset / 8),by rw [← fields ⟨offset / 8,by omega⟩]; dsimp only; omega⟩

def OnlyDrew (m m' : Machine) : Prop := m' = {m with drawn := m'.drawn}

theorem onlyDrew_queries (env : Env) : QueriesKeep OnlyDrew (tracee env) where
  refl _ := rfl
  trans a b c first second := by
    unfold OnlyDrew at *
    rw [second,first]
  getRegs m := by simp [tracee,exec_map,OnlyDrew]
  getRegSet m := by simp [tracee,exec_map,OnlyDrew]
  peekText address m := by simp [tracee,exec_map,OnlyDrew]
  maps m := by simp [tracee,exec_map,OnlyDrew]
  rand m := by simp [tracee,rand,exec_bind,exec_map,OnlyDrew]

def Held (m m' : Machine) : Prop := m'.resumed = m.resumed

theorem held_requests (env : Env) : RequestsKeep Held (tracee env) where
  refl _ := rfl
  trans a b c first second := Eq.trans second first
  getRegs m := by simp [tracee,exec_map,Held]
  getRegSet m := by simp [tracee,exec_map,Held]
  peekText address m := by simp [tracee,exec_map,Held]
  maps m := by simp [tracee,exec_map,Held]
  rand m := by simp [tracee,rand,exec_bind,exec_map,Held]
  setRegs gpregs m := by
    simp only [tracee,setRegs,exec_bind,exec_get]
    split <;> simp [exec_map,Held]
  setRegSet xsave m := by
    simp only [tracee,setRegSet,exec_bind,exec_get]
    split <;> simp [exec_map,Held]
  singleStep m := by simp [tracee,singleStep,exec_bind,exec_map,Held]
  waitpid m := by cases waiting : m.pending <;> simp [tracee,waitpid,exec_bind,exec_map,Held,waiting,fail]

theorem doBitFlip_held (env : Env) (cs : Capstone) (opts : Options) (garbage : Model.AddrSpace.Scanned)
    (pid : Nat) : KeepsUnless (· = true) Held (doBitFlip (tracee env) cs opts garbage pid) := by
  apply (held_requests env).doBitFlip
  intro m never
  exact absurd rfl (never true rfl)

def atFlip (env : Env) (child : Child) (reg : RegDescr) : Child :=
  if reg.written then (env.singleStep child).1 else child

def SteppedTo (env : Env) (reg : RegDescr) (m m' : Machine) : Prop :=
  m'.child = atFlip env m.child reg ∧ m'.resumed = m.resumed ∧
    m'.steps = m.steps + if reg.written then 1 else 0

theorem stepIfWritten_true (env : Env) (reg : RegDescr) (m m' : Machine)
    (ok : exec (stepIfWritten (tracee env) reg) m = (.ok true,m')) : SteppedTo env reg m m' := by
  unfold stepIfWritten at ok
  split at ok
  · next written =>
    obtain ⟨_,stepped,requested,ok⟩ := bind_ok _ _ _ _ _ ok
    obtain ⟨status,waited,reported,ok⟩ := bind_ok _ _ _ _ _ ok
    have same : m' = waited := by
      obtain ⟨state,_,decoded,judged⟩ := bind_ok _ _ _ _ _ ok
      obtain ⟨_,rfl⟩ := lift_ok _ _ _ _ decoded
      split at judged
      · have differs := (pure_ok _ _ _ _ judged).1
        simp at differs
      · obtain ⟨_,_,asserted,done⟩ := bind_ok _ _ _ _ _ judged
        obtain ⟨_,rfl⟩ := lift_ok _ _ _ _ asserted
        exact (pure_ok _ _ _ _ done).2
    subst same
    simp only [ptraceSafe,tracee,singleStep,exec_bind,exec_get,exec_set,exec_pure,Bool.not_true,
      Bool.false_eq_true,if_false,Prod.mk.injEq,true_and] at requested
    subst requested
    simp only [waitpidSafe,tracee,waitpid,exec_bind,exec_get,exec_set,exec_pure,Prod.mk.injEq] at reported
    obtain ⟨_,rfl⟩ := reported
    simp [SteppedTo,atFlip,written]
  · next unwritten =>
    obtain ⟨_,rfl⟩ := pure_ok _ _ _ _ ok
    simp [SteppedTo,atFlip,unwritten]

theorem registers_ext (a b : Child) (registers : a.registers = b.registers) (memory : a.memory = b.memory) :
    a = b := by
  obtain ⟨gpregs,xsave,_⟩ := a
  obtain ⟨gpregs',xsave',_⟩ := b
  obtain rfl : gpregs = gpregs' := funext fun i => congrFun registers (.inl i)
  obtain rfl : xsave = xsave' := funext fun i => congrFun registers (.inr i)
  obtain rfl := memory
  rfl

theorem tryBitFlip_true (env : Env) (rm next : RegisterManipulator) (m m' : Machine) (reg : String)
    (bit : Nat) (data : RegData) (pointer : RegPtr) (row : strToRegMap.lookup reg = some data)
    (stored : data.regPtr = some pointer) (inside : Inside pointer bit)
    (ok : exec (tryBitFlip (tracee env) rm reg bit) m = (.ok (true,next),m')) :
    m'.child.registers = flipped m.child.registers pointer bit ∧ m'.child.memory = m.child.memory ∧
      m'.resumed = m.resumed ∧ m'.steps = m.steps := by
  obtain ⟨sent,out,ran⟩ := exec_tryBitFlip env rm m reg bit data pointer row stored inside
  rw [ran] at ok
  obtain ⟨success,after,exported,ok⟩ := bind_ok _ _ _ _ _ ok
  obtain ⟨same,rfl⟩ := pure_ok _ _ _ _ ok
  obtain rfl : true = success := congrArg Prod.fst same
  by_cases accepts : Accepts env m sent
  · rw [exec_exportRegisters env sent m accepts] at exported
    obtain rfl : installed m sent = m' := congrArg Prod.snd exported
    exact ⟨out,rfl,rfl,rfl⟩
  · obtain ⟨_,refused,_⟩ := exec_exportRegisters_refused env sent m accepts
    rw [refused] at exported
    simp at exported

def Selects (env : Env) (cs : Capstone) (opts : Options) (m : Machine) (reg : RegDescr) (bit : Nat) : Prop :=
  ∃ ip rm middle, exec (getProgramCounter (tracee env) RegisterManipulator.init) m = (.ok (ip,rm),m) ∧
    exec (getSelectedRegAndBit (tracee env) cs opts ip) m = (.ok (reg,bit,true),middle)

/-- The thread goes on from the flip: the state at the stop, one step further exactly if the
register is written, with the one bit complemented; and the same flip undoes it. -/
structure ResumedFlipped (env : Env) (m m' : Machine) (reg : RegDescr) (bit : Nat) (pointer : RegPtr)
    (place : (Fin sizeofUserRegs ⊕ Fin sizeofXSave) × Fin 8) : Prop where
  located : location pointer bit = some place
  containing : ∀ offset, pointer = .gpregs offset → bit < 64 ∧ ∃ field : UserReg, offset = field.offset
  resumed : m'.resumed = m'.child :: m.resumed
  steps : m'.steps = m.steps + if reg.written then 1 else 0
  registers : m'.child.registers = complement (atFlip env m.child reg).registers place
  memory : m'.child.memory = (atFlip env m.child reg).memory
  undone : ∀ rm next again, exec (tryBitFlip (tracee env) rm reg.name bit) m' = (.ok (true,next),again) →
    again.child = atFlip env m.child reg

theorem flipSelected_true (env : Env) (rm : RegisterManipulator) (reg : RegDescr) (bit : Nat)
    (m m' : Machine) (data : RegData) (pointer : RegPtr) (row : strToRegMap.lookup reg.name = some data)
    (stored : data.regPtr = some pointer) (direct : serialised data = false)
    (range : bit < data.startBit + data.bits)
    (ok : exec (flipSelected (tracee env) rm reg bit) m = (.ok true,m')) :
    ∃ place, ResumedFlipped env m m' reg bit pointer place := by
  have room := row_fits reg.name data row
  have inside := row_inside data pointer bit room stored range
  obtain ⟨place,located⟩ := row_located data pointer bit room stored direct range
  obtain ⟨advanced,stepped,first,ok⟩ := bind_ok _ _ _ _ _ ok
  cases advanced with
  | false =>
    have differs := (pure_ok _ _ _ _ ok).1
    simp at differs
  | true =>
    obtain ⟨child,held,steps⟩ := stepIfWritten_true env reg m stepped first
    obtain ⟨⟨success,next⟩,after,tried,ok⟩ := bind_ok _ _ _ _ _ ok
    cases success with
    | false =>
      have differs := (pure_ok _ _ _ _ ok).1
      simp at differs
    | true =>
      obtain ⟨registers,memory,kept,counted⟩ :=
        tryBitFlip_true env rm next stepped after reg.name bit data pointer row stored inside tried
      have continued : m' = {after with resumed := after.child :: after.resumed} :=
        (congrArg Prod.snd ok).symm
      subst continued
      rw [flipped,located] at registers
      refine ⟨place,located,?_,?_,?_,?_,?_,?_⟩
      · intro offset same
        exact row_containing data offset bit room (stored.trans (congrArg some same)) range
      · simp only [kept,held]
      · simp only [counted,steps]
      · exact registers.trans (by rw [child])
      · exact memory.trans (by rw [child])
      · intro rm' next' again repeated
        obtain ⟨back,same,_,_⟩ :=
          tryBitFlip_true env rm' next' _ again reg.name bit data pointer row stored inside repeated
        apply registers_ext
        · simp only [flipped,located] at back
          rw [back,registers,complement_complement,child]
        · rw [same,← child]
          exact memory

theorem getProgramCounter_same (env : Env) (rm next : RegisterManipulator) (ip : BitVec 64) (m m' : Machine)
    (ok : exec (getProgramCounter (tracee env) rm) m = (.ok (ip,next),m')) : m' = m := by
  obtain ⟨imported,middle,read,ok⟩ := bind_ok _ _ _ _ _ ok
  obtain ⟨_,_,ran⟩ := exec_importRegistersTo env rm m
  obtain rfl : m = middle := congrArg Prod.snd (ran.symm.trans read)
  obtain ⟨_,_,word,ok⟩ := bind_ok _ _ _ _ _ ok
  obtain ⟨_,rfl⟩ := lift_ok _ _ _ _ word
  exact (pure_ok _ _ _ _ ok).2

theorem getProgramCounter_of_value (env : Env) (m : Machine) (ip : BitVec 64)
    (read : (exec (getProgramCounter (tracee env) .init) m).1.map Prod.fst = .ok ip) :
    ∃ rm, exec (getProgramCounter (tracee env) .init) m = (.ok (ip,rm),m) := by
  cases run : exec (getProgramCounter (tracee env) .init) m with
  | mk result last =>
    rw [run] at read
    cases result with
    | error halt => simp [Except.map] at read
    | ok value =>
      obtain ⟨ip',rm⟩ := value
      obtain rfl : ip' = ip := Except.ok.inj read
      rw [getProgramCounter_same env _ rm ip' m last run]
      exact ⟨rm,rfl⟩

theorem addressSpace_same (env : Env) (garbage : Model.AddrSpace.Scanned) (set : Model.AddrSpace.MappingsSet)
    (m m' : Machine) (ok : exec (addressSpace (tracee env) garbage) m = (.ok set,m')) : m' = m := by
  obtain ⟨text,middle,opened,ok⟩ := bind_ok _ _ _ _ _ ok
  simp only [tracee,exec_bind,exec_get,exec_pure,Prod.mk.injEq] at opened
  obtain ⟨_,rfl⟩ := opened
  split at ok
  · exact (lift_ok _ _ _ _ ok).2
  · simp [fail] at ok

theorem doBitFlip_true (env : Env) (cs : Capstone) (opts : Options) (garbage : Model.AddrSpace.Scanned)
    (pid : Nat) (m m' : Machine)
    (ok : exec (doBitFlip (tracee env) cs opts garbage pid) m = (.ok true,m')) :
    ∃ reg bit rm middle, Selects env cs opts m reg bit ∧ OnlyDrew m middle ∧
      exec (flipSelected (tracee env) rm reg bit) middle = (.ok true,m') := by
  obtain ⟨_,start,asserted,ok⟩ := bind_ok _ _ _ _ _ ok
  obtain rfl : m = start := (lift_ok _ _ _ _ asserted).2.symm
  obtain ⟨⟨ip,rm⟩,read,counted,ok⟩ := bind_ok _ _ _ _ _ ok
  obtain rfl : m = read := (getProgramCounter_same env _ rm ip m read counted).symm
  obtain ⟨childAS,looked,parsed,ok⟩ := bind_ok _ _ _ _ _ ok
  obtain rfl : m = looked := (addressSpace_same env garbage childAS m looked parsed).symm
  obtain ⟨inLibrary,asked,checked,ok⟩ := bind_ok _ _ _ _ _ ok
  obtain rfl : m = asked := (lift_ok _ _ _ _ checked).2.symm
  split at ok
  · have differs := (pure_ok _ _ _ _ ok).1
    simp at differs
  · obtain ⟨⟨reg,bit,success⟩,middle,selected,ok⟩ := bind_ok _ _ _ _ _ ok
    have drew := (onlyDrew_queries env).getSelectedRegAndBit cs opts ip
    cases success with
    | false =>
      have differs := (pure_ok _ _ _ _ ok).1
      simp at differs
    | true =>
      refine ⟨reg,bit,rm,middle,⟨ip,rm,middle,counted,selected⟩,?_,ok⟩
      have same := drew m
      rw [selected] at same
      exact same

theorem ResumedFlipped.of_onlyDrew {env : Env} {m middle m' : Machine} {reg : RegDescr} {bit : Nat}
    {pointer : RegPtr} {place : (Fin sizeofUserRegs ⊕ Fin sizeofXSave) × Fin 8} (drew : OnlyDrew m middle)
    (flip : ResumedFlipped env middle m' reg bit pointer place) :
    ResumedFlipped env m m' reg bit pointer place := by
  rw [drew] at flip
  exact ⟨flip.located,flip.containing,flip.resumed,flip.steps,flip.registers,flip.memory,flip.undone⟩

/-- Where doBitFlip succeeds, it did so on a selected register and one of its bits, and if
that register is one of the thread's own the thread goes on with this bit complemented. In
every other case it was not continued. -/
structure FlippedOrHeld (env : Env) (cs : Capstone) (opts : Options) (m : Machine)
    (run : Except Halt Bool × Machine) : Prop where
  flipped : run.1 = .ok true →
    ∃ reg bit data, Selects env cs opts m reg bit ∧ strToRegMap.lookup reg.name = some data ∧
      data.startBit ≤ bit ∧ bit < data.startBit + data.bits ∧
      ∀ pointer, data.regPtr = some pointer → serialised data = false →
        ∃ place, ResumedFlipped env m run.2 reg bit pointer place
  held : run.1 ≠ .ok true → run.2.resumed = m.resumed

theorem doBitFlip_resumed (env : Env) (cs : Capstone) (opts : Options) (garbage : Model.AddrSpace.Scanned)
    (pid : Nat) (m : Machine) :
    FlippedOrHeld env cs opts m (exec (doBitFlip (tracee env) cs opts garbage pid) m) := by
  have kept := doBitFlip_held env cs opts garbage pid m
  refine ⟨?_,?_⟩
  · intro done
    have run : exec (doBitFlip (tracee env) cs opts garbage pid) m = (.ok true,_) := Prod.ext done rfl
    obtain ⟨reg,bit,rm,middle,selected,drew,flip⟩ := doBitFlip_true env cs opts garbage pid m _ run
    obtain ⟨ip,_,after,_,picked⟩ := id selected
    obtain ⟨⟨data,row,start,width⟩,low,high⟩ := getSelectedRegAndBit_selected _ _ _ _ _ _ _ _ picked
    rw [start] at low high
    rw [width] at high
    refine ⟨reg,bit,data,selected,row,low,high,?_⟩
    intro pointer stored direct
    obtain ⟨place,flipped⟩ := flipSelected_true env rm reg bit middle _ data pointer row stored direct high flip
    exact ⟨place,flipped.of_onlyDrew drew⟩
  · intro failed
    refine kept ?_
    rintro value ran rfl
    exact failed ran

def mapped : Machine := {child := ⟨fun _ => 0,fun _ => 0,fun _ => some 0⟩}

def toAh : Options := {forceInjectToReg := some "ah",forceInjectToBit := some "9"}

def noCode : Capstone := ⟨fun _ => none,fun _ => ""⟩

theorem ah_flip_resumed :
    (exec (doBitFlip (tracee acceptingEnv) noCode toAh ⟨0,0,[]⟩ 7) mapped).1 = .ok true ∧
      ∃ reg bit, Selects acceptingEnv noCode toAh mapped reg bit := by
  have done : (exec (doBitFlip (tracee acceptingEnv) noCode toAh ⟨0,0,[]⟩ 7) mapped).1 = .ok true := by
    decide +kernel
  obtain ⟨reg,bit,_,selected,_⟩ := (doBitFlip_resumed acceptingEnv noCode toAh ⟨0,0,[]⟩ 7 mapped).flipped done
  exact ⟨done,reg,bit,selected⟩

end Zofi.BitFlipRun
