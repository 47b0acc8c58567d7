import Zofi.Collection

/-! The classes of the explicit operands: what is read belongs into RRegs, what is written into
WRegs, and an operand that is both into both. -/
namespace Zofi.Operands
open Sys Model.Utils Model.RegManip Model.OptionsParser Semantics.StoppedThread
open BitFlipRun VectorFlip Collection

def reads (access : Nat) : Bool := decide (access &&& csAcRead ≠ 0)

def writes (access : Nat) : Bool := decide (access &&& csAcWrite ≠ 0)

def readWritten : X86Op → Bool
  | .reg _ access => reads access && writes access
  | _ => false

def addressRegs (cs : Capstone) (segment base index : Nat) : RegsVec :=
  ([segment,base,index].filter (· ≠ 0)).map fun id => descr false (cs.regName id)

/-- The share of an operand in the three vectors, as the comment above the collection puts it. -/
def Classified (cs : Capstone) : X86Op → Collected → Prop
  | .reg id access,part =>
    let read := descr false (cs.regName id)
    let written := descr true (cs.regName id)
    part.rRegs = (if reads access then [read] else []) ∧ part.wRegs = (if writes access then [written] else []) ∧
      (reads access && writes access → part.allRegs.Perm [read,written])
  | .mem segment base index,part => part.rRegs = addressRegs cs segment base index ∧ part.wRegs = []
  | .other,part => part.rRegs = [] ∧ part.wRegs = []

def Classifies (cs : Capstone) (injectTo : String) (instr : CsInsn) (regs : Collected) : Prop :=
  ∃ parts, List.Forall₂ (Classified cs) instr.operands parts ∧
    regs = ofIP injectTo instr ++ ofImplicit cs injectTo instr ++ gather id parts

theorem gather_address (cs : Capstone) (segment base index : Nat) :
    gather (addressPart cs) [segment,base,index] =
      ⟨[],addressRegs cs segment base index,addressRegs cs segment base index⟩ := by
  have one (id : Nat) : addressPart cs id =
      ⟨[],([id].filter (· ≠ 0)).map fun id => descr false (cs.regName id),
        ([id].filter (· ≠ 0)).map fun id => descr false (cs.regName id)⟩ := by
    by_cases absent : id = 0 <;> simp [addressPart,absent]
  have split : [segment,base,index] = [segment] ++ [base] ++ [index] := rfl
  rw [addressRegs,split,List.filter_append,List.filter_append,List.map_append,List.map_append]
  simp [gather,one]

theorem ofOperand_classified (cs : Capstone) (operand : X86Op) (once : readWritten operand = false) :
    Classified cs operand (ofOperand cs operand) := by
  cases operand with
  | reg id access =>
    by_cases written : access &&& csAcWrite = 0
    · by_cases read : access &&& csAcRead = 0 <;> simp [Classified,ofOperand,reads,writes,written,read]
    · have unread : access &&& csAcRead = 0 := by simpa [readWritten,reads,writes,written] using once
      simp [Classified,ofOperand,reads,writes,written,unread]
  | mem segment base index =>
    rw [ofOperand,gather_address]
    exact ⟨rfl,rfl⟩
  | other => exact ⟨rfl,rfl⟩

/-- The collection counts no read that the law does not count, and misses the read of an operand
that is also written. -/
theorem ofOperand_reads (cs : Capstone) (operand : X86Op) (part : Collected) (classified : Classified cs operand part) :
    part.rRegs.length = (ofOperand cs operand).rRegs.length + (readWritten operand).toNat := by
  cases operand with
  | reg id access =>
    rw [classified.1]
    by_cases written : access &&& csAcWrite = 0 <;> by_cases read : access &&& csAcRead = 0 <;>
      simp [ofOperand,readWritten,reads,writes,written,read]
  | mem segment base index =>
    rw [classified.1,ofOperand,gather_address]
    rfl
  | other =>
    rw [classified.1]
    rfl

theorem gather_reads (cs : Capstone) (operands : List X86Op) (parts : List Collected)
    (classified : List.Forall₂ (Classified cs) operands parts) :
    (gather id parts).rRegs.length =
      (gather (ofOperand cs) operands).rRegs.length + operands.countP readWritten := by
  induction classified with
  | nil => rfl
  | @cons operand part operands parts first rest ih =>
    have share := ofOperand_reads cs operand part first
    simp only [gather,List.flatMap_cons,List.length_append,List.countP_cons,id] at ih share ⊢
    cases double : readWritten operand <;> simp only [double,Bool.toNat_true,Bool.toNat_false] at share ⊢ <;> grind

theorem gathered_classifies_iff (cs : Capstone) (injectTo : String) (instr : CsInsn)
    (explicit : isIn injectTo "e" = true) :
    Classifies cs injectTo instr (gathered cs injectTo instr) ↔
      ∀ operand ∈ instr.operands, readWritten operand = false := by
  have gathers : gathered cs injectTo instr =
      ofIP injectTo instr ++ ofImplicit cs injectTo instr ++ gather (ofOperand cs) instr.operands := by
    rw [gathered,ofExplicit,if_pos explicit]
  constructor
  · rintro ⟨parts,classified,same⟩
    have counted := gather_reads cs instr.operands parts classified
    have lengths := congrArg (fun regs : Collected => regs.rRegs.length) (gathers.symm.trans same)
    simp only [append_rRegs,List.length_append] at lengths
    have none : instr.operands.countP readWritten = 0 := by omega
    intro operand member
    exact Bool.eq_false_iff.mpr (List.countP_eq_zero.mp none operand member)
  · intro once
    refine ⟨instr.operands.map (ofOperand cs),?_,?_⟩
    · rw [List.forall₂_map_right_iff,List.forall₂_same]
      exact fun operand member => ofOperand_classified cs operand (once operand member)
    · rw [gathers]
      simp [gather,List.flatMap_map]

/-- The registers are classified as the comment says exactly where no operand is both read and
written. -/
theorem getInstrRegisters_classifies_iff {σ : Type} (T : Tracee σ) (cs : Capstone) (opts : Options) (ip : BitVec 64)
    (instr : CsInsn) (s : σ) (decoded : Decodes T cs ip s instr) (explicit : isIn opts.injectTo "e" = true) :
    (ImplicitKnown cs opts.injectTo instr → ExplicitKnown cs opts.injectTo instr →
      ∃ regs s', exec (getInstrRegisters T cs opts ip) s = (.ok regs,s')) ∧
    ∀ regs s', exec (getInstrRegisters T cs opts ip) s = (.ok regs,s') →
      (Classifies cs opts.injectTo instr regs ↔ ∀ operand ∈ instr.operands, readWritten operand = false) := by
  constructor
  · intro implicit known
    obtain ⟨childMem,s',copied,found⟩ := decoded
    exact ⟨_,s',getInstrRegisters_returns T cs opts ip instr childMem s s' copied found implicit known⟩
  · intro regs s' ok
    obtain ⟨_,_,rfl⟩ := getInstrRegisters_ok T cs opts ip instr regs s s' decoded ok
    exact gathered_classifies_iff cs opts.injectTo instr explicit

/-- `add rax,rbx`: rax is read and written. -/
def add : CsInsn := ⟨[],[],[],[.reg 1 (csAcRead ||| csAcWrite),.reg 3 csAcRead]⟩

theorem add_rax_unread : ∃ regs m,
    exec (getInstrRegisters (tracee acceptingEnv) (decodesTo add) {} 0) mapped = (.ok regs,m) ∧
      ¬ Classifies (decodesTo add) "rwe" add regs := by
  obtain ⟨m,returned⟩ := mapped_collects {} add (by decide) (by decide)
  refine ⟨_,m,returned,fun classifies => ?_⟩
  have once := (gathered_classifies_iff _ _ add (by decide)).mp classifies
  revert once
  decide

theorem movReg_classified : Classifies (decodesTo movReg) "rwe" movReg (gathered (decodesTo movReg) "rwe" movReg) := by
  obtain ⟨m,returned⟩ := mapped_collects {} movReg (by decide) (by decide)
  have law := (getInstrRegisters_classifies_iff (tracee acceptingEnv) (decodesTo movReg) {} 0 movReg mapped
    (mapped_decodes movReg) (by decide)).2
  exact (law _ m returned).mpr (by decide)

end Zofi.Operands
