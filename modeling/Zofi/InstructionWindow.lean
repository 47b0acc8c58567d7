import Zofi.Collection
import Zofi.Lib.Words

/-! The bytes that the collection reads at the program counter: what the copy loop makes of
them, and how many of them the decoder is handed. -/
namespace Zofi.InstructionWindow
open Sys Words Model.Utils Model.Regs Model.RegManip Semantics.StoppedThread BitFlipRun VectorFlip Collection

abbrev Memory := BitVec 64 → Option Byte

def byteAt (memory : Memory) (ip : BitVec 64) (k : Nat) : Option Byte := memory (ip + BitVec.ofNat 64 k)

def Readable (memory : Memory) (ip : BitVec 64) : Prop := ∀ k < 23, (byteAt memory ip k).isSome = true

def Distinct (memory : Memory) (ip : BitVec 64) : Prop := ∀ i < 16, ∃ j < 8, byteAt memory ip (i + j) ≠ some 255#8

theorem mapM_of_none {α β : Type} (f : α → Option β) (items : List α) (item : α) (member : item ∈ items)
    (missing : f item = none) : items.mapM f = none := by
  induction items with
  | nil => cases member
  | cons head items ih =>
    rw [List.mapM_cons]
    rcases List.mem_cons.mp member with rfl | later
    · rw [missing]
      rfl
    · rw [ih later]
      cases f head <;> rfl

theorem byteAt_byteAt (memory : Memory) (ip : BitVec 64) (i j : Nat) :
    memory (ip + BitVec.ofNat 64 i + BitVec.ofNat 64 j) = byteAt memory ip (i + j) := by
  rw [byteAt,BitVec.ofNat_add,BitVec.add_assoc]

theorem peekWord_mapped (memory : Memory) (ip : BitVec 64) (i : Nat)
    (mapped : ∀ j < 8, (byteAt memory ip (i + j)).isSome = true) :
    peekWord memory (ip + BitVec.ofNat 64 i) =
      word 64 ((List.range 8).map fun j => (byteAt memory ip (i + j)).getD 0) := by
  have bytes := mapM_of_pure (fun j => memory (ip + BitVec.ofNat 64 i + BitVec.ofNat 64 j))
    (fun j => (byteAt memory ip (i + j)).getD 0) (List.range 8) (by
      intro j member
      obtain ⟨byte,found⟩ := Option.isSome_iff_exists.mp (mapped j (List.mem_range.mp member))
      rw [byteAt_byteAt memory ip i j,found]
      rfl)
  simp only [peekWord,bytes]
  rfl

theorem peekWord_ne_iff (memory : Memory) (ip : BitVec 64) (i : Nat) :
    peekWord memory (ip + BitVec.ofNat 64 i) ≠ -1 ↔
      (∀ j < 8, (byteAt memory ip (i + j)).isSome = true) ∧ ∃ j < 8, byteAt memory ip (i + j) ≠ some 255#8 := by
  by_cases mapped : ∀ j < 8, (byteAt memory ip (i + j)).isSome = true
  · have ones := word_allOnes_iff (w := 64) ((List.range 8).map fun j => (byteAt memory ip (i + j)).getD 0) (by simp)
    have failure : (-1 : BitVec 64) = BitVec.allOnes 64 := by decide
    rw [peekWord_mapped memory ip i mapped,failure,Ne,ones]
    simp only [List.forall_mem_map,List.mem_range,not_forall]
    constructor
    · rintro ⟨j,below,differs⟩
      refine ⟨mapped,j,below,fun same => differs ?_⟩
      rw [same]
      rfl
    · rintro ⟨_,j,below,differs⟩
      obtain ⟨byte,found⟩ := Option.isSome_iff_exists.mp (mapped j below)
      refine ⟨j,below,fun same => differs ?_⟩
      rw [found] at same ⊢
      exact congrArg some same
  · obtain ⟨j,below,unmapped⟩ : ∃ j < 8, byteAt memory ip (i + j) = none := by simpa using mapped
    have failed := mapM_of_none (fun j => memory (ip + BitVec.ofNat 64 i + BitVec.ofNat 64 j)) (List.range 8) j
      (List.mem_range.mpr below) ((byteAt_byteAt memory ip i j).trans unmapped)
    simp only [peekWord,failed]
    exact ⟨fun differs => absurd rfl differs,fun both => absurd both.1 mapped⟩

theorem peekWord_first (memory : Memory) (ip : BitVec 64) (i : Nat)
    (mapped : ∀ j < 8, (byteAt memory ip (i + j)).isSome = true) :
    some ((peekWord memory (ip + BitVec.ofNat 64 i)).setWidth 8) = byteAt memory ip i := by
  obtain ⟨byte,found⟩ := Option.isSome_iff_exists.mp (mapped 0 (by omega))
  rw [Nat.add_zero] at found
  rw [peekWord_mapped memory ip i mapped,List.range_succ_eq_map,List.map_cons,word_first _ _ (by decide),
    Nat.add_zero,found]
  rfl

def copyByte (env : Env) (ip : BitVec 64) (bytes : List Byte) (i : Nat) : Prog Halt Machine (List Byte) := do
  let word ← (tracee env).peekText (ip + BitVec.ofNat 64 i)
  if word = -1 then fail (.die "ptrace() failed.")
  return bytes ++ [word.setWidth 8]

theorem exec_copyByte (env : Env) (m : Machine) (ip : BitVec 64) (bytes : List Byte) (i : Nat) :
    exec (copyByte env ip bytes i) m =
      if peekWord m.child.memory (ip + BitVec.ofNat 64 i) = -1 then (.error (.die "ptrace() failed."),m)
      else (.ok (bytes ++ [(peekWord m.child.memory (ip + BitVec.ofNat 64 i)).setWidth 8]),m) := by
  have peeked : exec ((tracee env).peekText (ip + BitVec.ofNat 64 i)) m =
      (.ok (peekWord m.child.memory (ip + BitVec.ofNat 64 i)),m) := rfl
  rw [copyByte,exec_bind_of _ _ _ _ _ peeked]
  by_cases failed : peekWord m.child.memory (ip + BitVec.ofNat 64 i) = -1
  · rw [if_pos failed,if_pos failed]
    rfl
  · rw [if_neg failed,if_neg failed]
    rfl

theorem copy_loop (env : Env) (m : Machine) (ip : BitVec 64) (offsets : List Nat) (bytes : List Byte) :
    exec (offsets.foldlM (copyByte env ip) bytes) m =
      if ∀ i ∈ offsets, peekWord m.child.memory (ip + BitVec.ofNat 64 i) ≠ -1 then
        (.ok (bytes ++ offsets.map fun i => (peekWord m.child.memory (ip + BitVec.ofNat 64 i)).setWidth 8),m)
      else (.error (.die "ptrace() failed."),m) := by
  induction offsets generalizing bytes with
  | nil =>
    rw [List.foldlM_nil,if_pos (List.forall_mem_nil _),List.map_nil,List.append_nil]
    rfl
  | cons i offsets ih =>
    rw [List.foldlM_cons,exec_bind,exec_copyByte]
    by_cases failed : peekWord m.child.memory (ip + BitVec.ofNat 64 i) = -1
    · rw [if_pos failed,if_neg fun all => all i List.mem_cons_self failed]
    · rw [if_neg failed]
      dsimp only
      rw [ih]
      by_cases rest : ∀ i ∈ offsets, peekWord m.child.memory (ip + BitVec.ofNat 64 i) ≠ -1
      · have all : ∀ k ∈ i :: offsets, peekWord m.child.memory (ip + BitVec.ofNat 64 k) ≠ -1 :=
          List.forall_mem_cons.mpr ⟨failed,rest⟩
        rw [if_pos rest,if_pos all,List.append_assoc]
        rfl
      · rw [if_neg rest,if_neg fun all => rest (List.forall_mem_cons.mp all).2]

theorem words_ne_iff (memory : Memory) (ip : BitVec 64) :
    (∀ i ∈ List.range maxInstrBytes, peekWord memory (ip + BitVec.ofNat 64 i) ≠ -1) ↔
      Readable memory ip ∧ Distinct memory ip := by
  simp only [List.mem_range,peekWord_ne_iff]
  constructor
  · intro all
    refine ⟨fun k below => ?_,fun i below => (all i below).2⟩
    -- the last seven bytes belong to the last word only
    by_cases early : k < 16
    · exact (all k early).1 0 (by omega)
    · have place : k = 15 + (k - 15) := by omega
      rw [place]
      exact (all 15 (by decide)).1 (k - 15) (by omega)
  · rintro ⟨readable,distinct⟩ i below
    have bound : i < 16 := below
    exact ⟨fun j within => readable (i + j) (by omega),distinct i below⟩

def firstBytes (memory : Memory) (ip : BitVec 64) : List Byte :=
  (List.range maxInstrBytes).map fun i => (peekWord memory (ip + BitVec.ofNat 64 i)).setWidth 8

theorem exec_copyInstr (env : Env) (m : Machine) (ip : BitVec 64) (copied : Readable m.child.memory ip)
    (distinct : Distinct m.child.memory ip) :
    exec (copyInstr (tracee env) ip) m = (.ok (firstBytes m.child.memory ip),m) :=
  (copy_loop env m ip (List.range maxInstrBytes) []).trans (if_pos ((words_ne_iff _ _).mpr ⟨copied,distinct⟩))

theorem exec_copyInstr_dies (env : Env) (m : Machine) (ip : BitVec 64)
    (lost : ¬ (Readable m.child.memory ip ∧ Distinct m.child.memory ip)) :
    exec (copyInstr (tracee env) ip) m = (.error (.die "ptrace() failed."),m) :=
  (copy_loop env m ip (List.range maxInstrBytes) []).trans (if_neg fun all => lost ((words_ne_iff _ _).mp all))

theorem firstBytes_at (memory : Memory) (ip : BitVec 64) (readable : Readable memory ip) (i : Nat)
    (below : i < maxInstrBytes) : (firstBytes memory ip)[i]? = byteAt memory ip i := by
  have bound : i < 16 := below
  rw [firstBytes,List.getElem?_map,List.getElem?_range below]
  exact peekWord_first memory ip i fun j within => readable (i + j) (by omega)

def CopiesBytes (env : Env) (m : Machine) (ip : BitVec 64) : Prop :=
  ∃ childMem, exec (copyInstr (tracee env) ip) m = (.ok childMem,m) ∧ childMem.length = maxInstrBytes ∧
    ∀ i < maxInstrBytes, childMem[i]? = byteAt m.child.memory ip i

theorem copyInstr_iff (env : Env) (m : Machine) (ip : BitVec 64) (readable : Readable m.child.memory ip) :
    CopiesBytes env m ip ↔ Distinct m.child.memory ip := by
  constructor
  · rintro ⟨childMem,ran,_⟩
    by_contra ones
    rw [exec_copyInstr_dies env m ip fun both => ones both.2] at ran
    cases ran
  · intro distinct
    refine ⟨_,exec_copyInstr env m ip readable distinct,?_,firstBytes_at _ ip readable⟩
    rw [firstBytes,List.length_map,List.length_range]

def holding (code : List Byte) : Machine :=
  {child := ⟨fun _ => 0,fun _ => 0,fun address => some (code.getD address.toNat 0x90)⟩}

/-- `mov rax,-1` -/
def movOnes : List Byte := [0x48,0xb8,0xff,0xff,0xff,0xff,0xff,0xff,0xff,0xff]

theorem holding_readable (code : List Byte) : Readable (holding code).child.memory 0 := fun _ _ => rfl

theorem movOnes_dies : Readable (holding movOnes).child.memory 0 ∧ ¬ CopiesBytes acceptingEnv (holding movOnes) 0 := by
  refine ⟨holding_readable movOnes,fun copies => ?_⟩
  obtain ⟨childMem,ran,_⟩ := copies
  have ones : ¬ Distinct (holding movOnes).child.memory 0 := by
    intro distinct
    obtain ⟨j,below,differs⟩ := distinct 2 (by decide)
    have all : ∀ j < 8, byteAt (holding movOnes).child.memory 0 (2 + j) = some 255#8 := by decide
    exact differs (all j below)
  rw [exec_copyInstr_dies acceptingEnv _ 0 fun both => ones both.2] at ran
  cases ran

/-- `mov rax,0x7fffffffffffffff`: one byte of ones too few. -/
def sevenOnes : List Byte := [0x48,0xb8,0xff,0xff,0xff,0xff,0xff,0xff,0xff,0x7f]

theorem sevenOnes_copied : CopiesBytes acceptingEnv (holding sevenOnes) 0 := by
  have distinct : Distinct (holding sevenOnes).child.memory 0 := by
    unfold Distinct
    decide
  exact (copyInstr_iff acceptingEnv (holding sevenOnes) 0 (holding_readable sevenOnes)).mpr distinct

def collection (cs : Capstone) (injectTo : String) (instr : CsInsn) : Except Halt Collected := do
  let regs ← collectIP injectTo instr {}
  let regs ← collectImplicit cs injectTo instr regs
  collectExplicit cs injectTo instr regs

theorem exec_collection {σ : Type} (cs : Capstone) (injectTo : String) (instr : CsInsn) (s : σ) :
    exec (do
      let regs ← collectIP injectTo instr {}
      let regs ← collectImplicit cs injectTo instr regs
      collectExplicit cs injectTo instr regs : Prog Halt σ Collected) s = (collection cs injectTo instr,s) := by
  rw [exec_bind,exec_lift,collection]
  cases collectIP injectTo instr {} with
  | error e => rfl
  | ok regs => exact exec_lift_bind _ _ s

theorem exec_getInstrRegisters (env : Env) (cs : Capstone) (opts : Options) (m : Machine) (ip : BitVec 64)
    (readable : Readable m.child.memory ip) (distinct : Distinct m.child.memory ip) :
    exec (getInstrRegisters (tracee env) cs opts ip) m =
      ((cs.disasm ((firstBytes m.child.memory ip).take 8)).elim (.ok {}) (collection cs opts.injectTo),m) := by
  rw [getInstrRegisters,exec_bind_of _ _ _ _ _ (exec_copyInstr env m ip readable distinct)]
  cases cs.disasm ((firstBytes m.child.memory ip).take 8) with
  | none => rfl
  | some instr => exact exec_collection cs opts.injectTo instr m

theorem exec_getInstrRegisters_dies (env : Env) (cs : Capstone) (opts : Options) (m : Machine) (ip : BitVec 64)
    (lost : ¬ (Readable m.child.memory ip ∧ Distinct m.child.memory ip)) :
    exec (getInstrRegisters (tracee env) cs opts ip) m = (.error (.die "ptrace() failed."),m) := by
  rw [getInstrRegisters,exec_bind,exec_copyInstr_dies env m ip lost]

/-- The decoder finds the instruction as soon as it is handed all its bytes. -/
structure Encodes (cs : Capstone) (code : List Byte) (instr : CsInsn) : Prop where
  legal : 1 ≤ code.length ∧ code.length ≤ 15
  whole : ∀ rest, cs.disasm (code ++ rest) = some instr
  cut : ∀ k < code.length, cs.disasm (code.take k) = none

def StartsAt (memory : Memory) (ip : BitVec 64) (code : List Byte) : Prop :=
  ∀ k (below : k < code.length), byteAt memory ip k = some code[k]

def operandIds : X86Op → List Nat
  | .reg reg _ => [reg]
  | .mem segment base index => [segment,base,index].filter (· ≠ 0)
  | .other => []

structure NamesNothing (injectTo : String) (instr : CsInsn) : Prop where
  ip : takesIP injectTo instr = false
  implicit : isIn injectTo "i" = true → instr.regsRead = [] ∧ instr.regsWrite = []
  explicit : isIn injectTo "e" = true → ∀ operand ∈ instr.operands, operandIds operand = []

def unlisted (halt : Halt) : Prop := ∃ name, halt = .die ("Unknown register: " ++ name ++ ".")

theorem getRegDataForStrSafe_fails (name : String) : FailsAs unlisted (getRegDataForStrSafe name) := by
  unfold getRegDataForStrSafe
  split
  · exact FailsAs.ok _ _
  · exact FailsAs.error ⟨name,rfl⟩

theorem collectOperand_fails (cs : Capstone) (regs : Collected) (operand : X86Op) :
    FailsAs unlisted (collectOperand cs regs operand) := by
  have fields (name : String) (next : Nat → Nat → Except Halt Collected)
      (rest : ∀ startBit bits, FailsAs unlisted (next startBit bits)) :
      FailsAs unlisted (do let startBit ← getStartBit name; let bits ← getBits name; next startBit bits) := by
    have looked := getRegDataForStrSafe_fails name
    apply FailsAs.bind (FailsAs.bind looked fun data => FailsAs.ok _ _)
    intro startBit
    exact FailsAs.bind (FailsAs.bind looked fun data => FailsAs.ok _ _) (rest startBit)
  cases operand with
  | reg reg access =>
    apply fields
    intro startBit bits
    dsimp only
    split
    · exact FailsAs.ok _ _
    · split <;> exact FailsAs.ok _ _
  | mem segment base index =>
    apply FailsAs.foldlM
    intro regs reg
    split
    · exact FailsAs.ok _ _
    · exact fields _ _ fun _ _ => FailsAs.ok _ _
  | other => exact FailsAs.ok _ _

theorem collection_fails (cs : Capstone) (injectTo : String) (instr : CsInsn) :
    FailsAs unlisted (collection cs injectTo instr) := by
  apply FailsAs.bind
  · unfold collectIP
    split
    · exact FailsAs.bind (getRegDataForStrSafe_fails "rip") fun _ => FailsAs.ok _ _
    · exact FailsAs.ok _ _
  intro regs
  apply FailsAs.bind
  · unfold collectImplicit
    split
    · apply FailsAs.bind
      · exact FailsAs.foldlM (fun regs id => FailsAs.bind (getRegDataForStrSafe_fails _) fun _ => FailsAs.ok _ _) _ _
      · exact fun regs =>
          FailsAs.foldlM (fun regs id => FailsAs.bind (getRegDataForStrSafe_fails _) fun _ => FailsAs.ok _ _) _ _
    · exact FailsAs.ok _ _
  intro regs
  unfold collectExplicit
  split
  · exact FailsAs.foldlM (collectOperand_fails cs) _ _
  · exact FailsAs.ok _ _

theorem collection_ok_iff (cs : Capstone) (injectTo : String) (instr : CsInsn) (regs : Collected) :
    collection cs injectTo instr = .ok regs ↔
      ImplicitKnown cs injectTo instr ∧ ExplicitKnown cs injectTo instr ∧ regs = gathered cs injectTo instr := by
  have one : collectIP injectTo instr {} = .ok (ofIP injectTo instr) :=
    (collectIP_ok_iff _ _ _ _).mpr (empty_append _).symm
  have run : collection cs injectTo instr =
      collectImplicit cs injectTo instr (ofIP injectTo instr) >>= collectExplicit cs injectTo instr := by
    rw [collection,one]
    rfl
  rw [run]
  constructor
  · intro ok
    obtain ⟨middle,two,three⟩ := except_bind_ok _ _ _ ok
    obtain ⟨implicit,rfl⟩ := (collectImplicit_ok_iff _ _ _ _ _).mp two
    obtain ⟨explicit,rfl⟩ := (collectExplicit_ok_iff _ _ _ _ _).mp three
    exact ⟨implicit,explicit,rfl⟩
  · rintro ⟨implicit,explicit,rfl⟩
    rw [(collectImplicit_ok_iff _ _ _ _ _).mpr ⟨implicit,rfl⟩]
    exact (collectExplicit_ok_iff _ _ _ _ _).mpr ⟨explicit,rfl⟩

theorem gather_empty_iff {α : Type} (emit : α → Collected) (items : List α) :
    gather emit items = {} ↔ ∀ item ∈ items, emit item = {} := by
  simp only [gather,collected_eq_iff,List.flatMap_eq_nil_iff]
  exact ⟨fun all item member => ⟨all.1 item member,all.2.1 item member,all.2.2 item member⟩,
    fun all => ⟨fun item member => (all item member).1,fun item member => (all item member).2.1,
      fun item member => (all item member).2.2⟩⟩

theorem append_empty_iff (a b : Collected) : a ++ b = {} ↔ a = {} ∧ b = {} := by
  simp only [collected_eq_iff,append_wRegs,append_rRegs,append_allRegs,List.append_eq_nil_iff]
  tauto

theorem ofOperand_empty_iff (cs : Capstone) (operand : X86Op) : ofOperand cs operand = {} ↔ operandIds operand = [] := by
  cases operand with
  | reg reg access =>
    simp only [operandIds,ofOperand,List.cons_ne_nil,iff_false]
    split
    · simp [collected_eq_iff]
    · split <;> simp [collected_eq_iff]
  | mem segment base index =>
    have part (id : Nat) : addressPart cs id = {} ↔ id = 0 := by
      by_cases absent : id = 0 <;> simp [addressPart,absent,collected_eq_iff]
    rw [ofOperand,gather_empty_iff,operandIds,List.filter_eq_nil_iff]
    simp [part]
  | other => simp [ofOperand,operandIds]

theorem collection_empty_iff (cs : Capstone) (injectTo : String) (instr : CsInsn) :
    collection cs injectTo instr = .ok {} ↔ NamesNothing injectTo instr := by
  have ip : ofIP injectTo instr = {} ↔ takesIP injectTo instr = false := by
    unfold ofIP
    cases takesIP injectTo instr <;> simp [collected_eq_iff]
  have implicit : ofImplicit cs injectTo instr = {} ↔
      (isIn injectTo "i" = true → instr.regsRead = [] ∧ instr.regsWrite = []) := by
    have reads : gather (implicitRead cs) instr.regsRead = {} ↔ instr.regsRead = [] := by
      rw [gather_empty_iff,List.eq_nil_iff_forall_not_mem]
      simp [implicitRead,collected_eq_iff]
    have writes : gather (implicitWrite cs) instr.regsWrite = {} ↔ instr.regsWrite = [] := by
      rw [gather_empty_iff,List.eq_nil_iff_forall_not_mem]
      simp [implicitWrite,collected_eq_iff]
    unfold ofImplicit
    cases isIn injectTo "i" <;> simp [append_empty_iff,reads,writes]
  have explicit : ofExplicit cs injectTo instr = {} ↔
      (isIn injectTo "e" = true → ∀ operand ∈ instr.operands, operandIds operand = []) := by
    unfold ofExplicit
    cases isIn injectTo "e" <;> simp [gather_empty_iff,ofOperand_empty_iff]
  rw [collection_ok_iff,eq_comm (a := ({} : Collected)),gathered,append_empty_iff,append_empty_iff,ip,implicit,explicit]
  constructor
  · rintro ⟨_,_,⟨none,reads⟩,operands⟩
    exact ⟨none,reads,operands⟩
  · intro nothing
    refine ⟨fun i => ?_,fun e operand member => ?_,⟨nothing.ip,nothing.implicit⟩,nothing.explicit⟩
    · rw [(nothing.implicit i).1,(nothing.implicit i).2]
      exact List.forall_mem_nil _
    · have unnamed := nothing.explicit e operand member
      cases operand with
      | reg reg access => cases unnamed
      | mem segment base index =>
        intro id listed present
        exact absurd (List.filter_eq_nil_iff.mp unnamed id listed) (by simpa using present)
      | other => trivial

theorem firstBytes_code (memory : Memory) (ip : BitVec 64) (code : List Byte) (readable : Readable memory ip)
    (short : code.length ≤ 15) (starts : StartsAt memory ip code) : ∃ rest, firstBytes memory ip = code ++ rest := by
  have head : code <+: firstBytes memory ip := by
    rw [List.prefix_iff_getElem?]
    intro k below
    have bound : maxInstrBytes = 16 := rfl
    rw [firstBytes_at memory ip readable k (by omega)]
    exact starts k below
  obtain ⟨rest,same⟩ := head
  exact ⟨rest,same.symm⟩

theorem Encodes.truncated {cs : Capstone} {code : List Byte} {instr : CsInsn} (encodes : Encodes cs code instr)
    (rest : List Byte) : cs.disasm ((code ++ rest).take 8) = if code.length ≤ 8 then some instr else none := by
  split
  · next fits =>
    rw [List.take_append,List.take_of_length_le fits]
    exact encodes.whole _
  · next long =>
    rw [List.take_append_of_le_length (by omega)]
    exact encodes.cut 8 (by omega)

def CollectsInstr (env : Env) (cs : Capstone) (opts : Options) (m : Machine) (ip : BitVec 64) (instr : CsInsn) : Prop :=
  exec (getInstrRegisters (tracee env) cs opts ip) m = (collection cs opts.injectTo instr,m)

theorem getInstrRegisters_run (env : Env) (cs : Capstone) (opts : Options) (m : Machine) (ip : BitVec 64)
    (code : List Byte) (instr : CsInsn) (encodes : Encodes cs code instr) (starts : StartsAt m.child.memory ip code)
    (readable : Readable m.child.memory ip) (distinct : Distinct m.child.memory ip) :
    exec (getInstrRegisters (tracee env) cs opts ip) m =
      (if code.length ≤ 8 then collection cs opts.injectTo instr else .ok {},m) := by
  obtain ⟨rest,window⟩ := firstBytes_code m.child.memory ip code readable encodes.legal.2 starts
  rw [exec_getInstrRegisters env cs opts m ip readable distinct,window,encodes.truncated]
  split
  · rfl
  · rfl

/-- The registers of the instruction are collected exactly where its window can be copied, and
eight bytes of it are enough or it has none. -/
theorem collectsInstr_iff (env : Env) (cs : Capstone) (opts : Options) (m : Machine) (ip : BitVec 64)
    (code : List Byte) (instr : CsInsn) (encodes : Encodes cs code instr) (starts : StartsAt m.child.memory ip code) :
    CollectsInstr env cs opts m ip instr ↔
      (Readable m.child.memory ip ∧ Distinct m.child.memory ip) ∧
        (code.length ≤ 8 ∨ NamesNothing opts.injectTo instr) := by
  unfold CollectsInstr
  by_cases copied : Readable m.child.memory ip ∧ Distinct m.child.memory ip
  · rw [getInstrRegisters_run env cs opts m ip code instr encodes starts copied.1 copied.2,and_iff_right copied]
    by_cases fits : code.length ≤ 8
    · simp [fits]
    · rw [if_neg fits,← collection_empty_iff cs,or_iff_right fits,Prod.mk.injEq,eq_comm]
      simp
  · rw [exec_getInstrRegisters_dies env cs opts m ip copied]
    constructor
    · intro same
      obtain ⟨name,died⟩ := collection_fails cs opts.injectTo instr _ (congrArg Prod.fst same).symm
      simp [String.ext_iff] at died
    · exact fun both => absurd both.1 copied

def decoder (code : List Byte) (instr : CsInsn) : Capstone :=
  ⟨fun bytes => if code.isPrefixOf bytes then some instr else none,(decodesTo instr).regName⟩

theorem decoder_encodes (code : List Byte) (instr : CsInsn) (legal : 1 ≤ code.length ∧ code.length ≤ 15) :
    Encodes (decoder code instr) code instr where
  legal := legal
  whole rest := if_pos (List.isPrefixOf_iff_prefix.mpr (List.prefix_append code rest))
  cut k below := by
    apply if_neg
    intro found
    have fits := (List.isPrefixOf_iff_prefix.mp found).length_le
    rw [List.length_take] at fits
    omega

theorem holding_starts (code : List Byte) (legal : code.length ≤ 15) : StartsAt (holding code).child.memory 0 code := by
  intro k below
  have place : (0 + BitVec.ofNat 64 k).toNat = k := by
    rw [zero_add,BitVec.toNat_ofNat]
    exact Nat.mod_eq_of_lt (by omega)
  simp only [byteAt,holding,place,List.getD_eq_getElem _ _ below]

theorem holding_distinct (code : List Byte) (ordinary : ∀ i < 16, byteAt (holding code).child.memory 0 i ≠ some 255#8) :
    Distinct (holding code).child.memory 0 := fun i below => ⟨0,by decide,ordinary i below⟩

/-- `mov rax,0x0807060504030201`: ten bytes. -/
def movCode : List Byte := [0x48,0xb8,1,2,3,4,5,6,7,8]

def mov : CsInsn := ⟨[],[],[],[.reg 1 csAcWrite,.other]⟩

theorem mov_not_collected : Encodes (decoder movCode mov) movCode mov ∧
    StartsAt (holding movCode).child.memory 0 movCode ∧
    ¬ CollectsInstr acceptingEnv (decoder movCode mov) {} (holding movCode) 0 mov := by
  have encodes := decoder_encodes movCode mov (by decide)
  have starts := holding_starts movCode (by decide)
  refine ⟨encodes,starts,fun collects => ?_⟩
  have run := getInstrRegisters_run acceptingEnv (decoder movCode mov) {} (holding movCode) 0 movCode mov encodes starts
    (holding_readable movCode) (holding_distinct movCode (by decide))
  have empty := congrArg Prod.fst (run.symm.trans collects)
  revert empty
  decide

/-- `mul rbx`, as its bytes. -/
def mulCode : List Byte := [0x48,0xf7,0xe3]

theorem mul_collected : CollectsInstr acceptingEnv (decoder mulCode mul) {} (holding mulCode) 0 mul :=
  (collectsInstr_iff acceptingEnv (decoder mulCode mul) {} (holding mulCode) 0 mulCode mul
    (decoder_encodes mulCode mul (by decide)) (holding_starts mulCode (by decide))).mpr
    ⟨⟨holding_readable mulCode,holding_distinct mulCode (by decide)⟩,.inl (by decide)⟩

end Zofi.InstructionWindow
