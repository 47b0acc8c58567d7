import Zofi.ForcedBit

/-! A forced register at two stops: the selection is the same at both unless the walk over one of
the instructions dies. -/
namespace Zofi.ForcedRegister
open Sys Model.Utils Model.Regs Model.RegManip Model.OptionsParser Semantics.StoppedThread
open Selection BitFlipRun VectorFlip Collection InstructionWindow Draws ForcedBit

structure Stop where
  env : Env
  cs : Capstone
  machine : Machine
  ip : BitVec 64

namespace Stop

def memory (stop : Stop) : Memory := stop.machine.child.memory

def collects (stop : Stop) (opts : Options) : Except Halt Collected × Machine :=
  exec (getInstrRegisters (tracee stop.env) stop.cs opts stop.ip) stop.machine

def selects (stop : Stop) (opts : Options) : Except Halt (RegDescr × Nat × Bool) :=
  (exec (getSelectedRegAndBit (tracee stop.env) stop.cs opts stop.ip) stop.machine).1

def decoded (stop : Stop) : Option CsInsn := stop.cs.disasm ((firstBytes stop.memory stop.ip).take 8)

def draw (stop : Stop) : Nat := stop.env.rand stop.machine.drawn

end Stop

/-- The walk comes to its end: the words can be read, and every name that the decoder reports for
the letters is in the table. -/
structure Walks (injectTo : String) (stop : Stop) : Prop where
  readable : Readable stop.memory stop.ip
  distinct : Distinct stop.memory stop.ip
  named : ∀ instr, stop.decoded = some instr →
    ImplicitKnown stop.cs injectTo instr ∧ ExplicitKnown stop.cs injectTo instr

def Same (opts : Options) (one two : Stop) : Prop :=
  ∃ result, one.selects opts = .ok result ∧ two.selects opts = .ok result

theorem walks_iff (opts : Options) (stop : Stop) :
    Walks opts.injectTo stop ↔ ∃ regs, stop.collects opts = (.ok regs,stop.machine) := by
  by_cases copied : Readable stop.memory stop.ip ∧ Distinct stop.memory stop.ip
  · have collects : stop.collects opts =
        (stop.decoded.elim (.ok {}) (collection stop.cs opts.injectTo),stop.machine) :=
      exec_getInstrRegisters stop.env stop.cs opts stop.machine stop.ip copied.1 copied.2
    rw [collects]
    cases found : stop.decoded with
    | none => exact iff_of_true ⟨copied.1,copied.2,by simp [found]⟩ ⟨_,rfl⟩
    | some instr =>
      constructor
      · intro walks
        obtain ⟨implicit,explicit⟩ := walks.named instr found
        exact ⟨_,congrArg (·,stop.machine) ((collection_ok_iff _ _ _ _).mpr ⟨implicit,explicit,rfl⟩)⟩
      · rintro ⟨regs,ok⟩
        obtain ⟨implicit,explicit,_⟩ := (collection_ok_iff _ _ _ _).mp (congrArg Prod.fst ok)
        refine ⟨copied.1,copied.2,fun other same => ?_⟩
        obtain rfl := Option.some.inj (found.symm.trans same)
        exact ⟨implicit,explicit⟩
  · have dies : stop.collects opts = (.error (.die "ptrace() failed."),stop.machine) :=
      exec_getInstrRegisters_dies stop.env stop.cs opts stop.machine stop.ip copied
    refine iff_of_false (fun walks => copied ⟨walks.readable,walks.distinct⟩) ?_
    rintro ⟨regs,ok⟩
    rw [dies] at ok
    cases ok

theorem selects_walked (opts : Options) (reg : String) (known : Known reg) (forced : opts.forceInjectToReg = some reg)
    (stop : Stop) (walks : Walks opts.injectTo stop) :
    stop.selects opts = bitOf (descr false reg) stop.draw opts.forceInjectToBit := by
  obtain ⟨regs,collected⟩ := (walks_iff opts stop).mp walks
  obtain ⟨data,row⟩ := Option.isSome_iff_exists.mp known
  have described : descr false reg = ⟨reg,data.startBit,data.bits,false⟩ := by
    unfold descr
    rw [row]
    rfl
  have wide : 0 < data.bits := (table_rows _ (lookup_listed reg data row)).1
  rw [Stop.selects,exec_forced (tracee stop.env) stop.cs opts stop.ip reg regs _ _ forced collected,row,described]
  exact exec_bitOf stop.env opts _ stop.machine wide

theorem walks_of_selects (opts : Options) (stop : Stop) (result : RegDescr × Nat × Bool)
    (ok : stop.selects opts = .ok result) : Walks opts.injectTo stop := by
  have run : exec (getSelectedRegAndBit (tracee stop.env) stop.cs opts stop.ip) stop.machine = (.ok result,_) :=
    Prod.ext ok rfl
  obtain ⟨regs,m,collected,_⟩ := bind_ok _ _ _ _ _ run
  obtain rfl := collected_state _ _ _ _ _ _ _ collected
  exact (walks_iff opts stop).mpr ⟨regs,collected⟩

theorem forcedSame_iff (opts : Options) (reg : String) (known : Known reg) (forced : opts.forceInjectToReg = some reg)
    (numeric : ∀ text, opts.forceInjectToBit = some text → (strtolCheck text).isSome = true) (one two : Stop)
    (draws : opts.forceInjectToBit = none → one.draw = two.draw) :
    Same opts one two ↔ Walks opts.injectTo one ∧ Walks opts.injectTo two := by
  constructor
  · rintro ⟨result,first,second⟩
    exact ⟨walks_of_selects opts one result first,walks_of_selects opts two result second⟩
  · rintro ⟨first,second⟩
    unfold Same
    rw [selects_walked opts reg known forced one first,selects_walked opts reg known forced two second]
    cases given : opts.forceInjectToBit with
    | none =>
      rw [draws given]
      exact ⟨_,rfl,rfl⟩
    | some text =>
      obtain ⟨value,read⟩ := Option.isSome_iff_exists.mp (numeric text given)
      have whatever (draw : Nat) : bitOf (descr false reg) draw (some text) = bitOf (descr false reg) 0 (some text) := rfl
      rw [whatever one.draw,whatever two.draw,bitOf,read]
      exact ⟨_,rfl,rfl⟩

def naming (name : String) : Stop :=
  ⟨acceptingEnv,⟨fun _ => some ⟨[],[],[],[.reg 1 csAcWrite]⟩,fun _ => name⟩,mapped,0⟩

def toRax : Options := (forcing "rax" "3").options

theorem naming_readable (name : String) : Readable (naming name).memory 0 ∧ Distinct (naming name).memory 0 := by
  have zeros (k : Nat) : byteAt (naming name).memory 0 k = some 0 := rfl
  refine ⟨fun k _ => ?_,fun i _ => ⟨0,by decide,?_⟩⟩
  · rw [zeros]
    rfl
  · rw [zeros]
    decide

theorem bnd0_dies : Known "rax" ∧ (naming "rbx").selects toRax = .ok (descr false "rax",3,true) ∧
    (naming "bnd0").selects toRax = .error (.die "Unknown register: bnd0.") ∧
    ¬ Same toRax (naming "rbx") (naming "bnd0") := by
  have dies : (naming "bnd0").selects toRax = .error (.die "Unknown register: bnd0.") := by decide +kernel
  refine ⟨by decide,by decide +kernel,dies,?_⟩
  rintro ⟨result,_,ok⟩
  rw [dies] at ok
  cases ok

theorem rbx_rcx_same : Same toRax (naming "rbx") (naming "rcx") :=
  (forcedSame_iff toRax "rax" (by decide) rfl (by rintro _ ⟨⟩; decide) (naming "rbx") (naming "rcx") fun _ => rfl).mpr
    ⟨⟨(naming_readable _).1,(naming_readable _).2,by rintro _ ⟨⟩; decide⟩,
      (naming_readable _).1,(naming_readable _).2,by rintro _ ⟨⟩; decide⟩

end Zofi.ForcedRegister
