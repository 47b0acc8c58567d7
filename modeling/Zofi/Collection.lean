import Zofi.BitFlipRun
import Zofi.Model.OptionsParser

/-! What getInstrRegisters collects: each of its steps, unless it stops at a register missing
from the table, appends lists that depend on the instruction and the letters alone. -/
namespace Zofi.Collection
open Sys Model.Utils Model.Regs Model.RegManip Model.OptionsParser Semantics.StoppedThread
open Selection BitFlipRun VectorFlip

def Known (name : String) : Prop := (strToRegMap.lookup name).isSome = true

instance (name : String) : Decidable (Known name) := inferInstanceAs (Decidable (_ = true))

def descr (written : Bool) (name : String) : RegDescr :=
  let data := (strToRegMap.lookup name).getD ⟨none,0,0⟩
  ⟨name,data.startBit,data.bits,written⟩

instance : Append Collected :=
  ⟨fun a b => ⟨a.wRegs ++ b.wRegs,a.rRegs ++ b.rRegs,a.allRegs ++ b.allRegs⟩⟩

@[simp] theorem append_wRegs (a b : Collected) : (a ++ b).wRegs = a.wRegs ++ b.wRegs := rfl

@[simp] theorem append_rRegs (a b : Collected) : (a ++ b).rRegs = a.rRegs ++ b.rRegs := rfl

@[simp] theorem append_allRegs (a b : Collected) : (a ++ b).allRegs = a.allRegs ++ b.allRegs := rfl

theorem collected_eq_iff (a b : Collected) :
    a = b ↔ a.wRegs = b.wRegs ∧ a.rRegs = b.rRegs ∧ a.allRegs = b.allRegs := by
  cases a
  cases b
  simp

theorem append_empty (a : Collected) : a ++ ({} : Collected) = a := by simp [collected_eq_iff]

@[simp] theorem empty_append (a : Collected) : ({} : Collected) ++ a = a := by simp [collected_eq_iff]

theorem append_append (a b c : Collected) : a ++ b ++ c = a ++ (b ++ c) := by simp [collected_eq_iff]

def gather {α : Type} (emit : α → Collected) (items : List α) : Collected where
  wRegs := items.flatMap fun item => (emit item).wRegs
  rRegs := items.flatMap fun item => (emit item).rRegs
  allRegs := items.flatMap fun item => (emit item).allRegs

theorem foldl_gather {α : Type} (emit : α → Collected) (items : List α) (regs : Collected) :
    items.foldl (fun regs item => regs ++ emit item) regs = regs ++ gather emit items := by
  induction items generalizing regs with
  | nil => exact (append_empty regs).symm
  | cons item items ih =>
    rw [List.foldl_cons,ih]
    simp [gather,collected_eq_iff]

theorem foldlM_gather {α : Type} (step : Collected → α → Except Halt Collected) (known : α → Prop)
    (emit : α → Collected)
    (each : ∀ regs item next, step regs item = .ok next ↔ known item ∧ next = regs ++ emit item)
    (items : List α) (regs next : Collected) :
    items.foldlM step regs = .ok next ↔ (∀ item ∈ items, known item) ∧ next = regs ++ gather emit items := by
  rw [foldlM_ok_iff step known (fun regs item => regs ++ emit item) each,foldl_gather]

theorem looked_up {β : Type} (name : String) (next : RegData → Except Halt β) (result : β) :
    getRegDataForStrSafe name >>= next = .ok result ↔
      Known name ∧ next ((strToRegMap.lookup name).getD ⟨none,0,0⟩) = .ok result := by
  unfold getRegDataForStrSafe Known
  cases strToRegMap.lookup name <;> simp [bind,Except.bind]

theorem fields_looked_up {β : Type} (name : String) (next : Nat → Nat → Except Halt β) (result : β) :
    (do let startBit ← getStartBit name; let bits ← getBits name; next startBit bits) = .ok result ↔
      Known name ∧ next (descr false name).startBit (descr false name).bits = .ok result := by
  unfold getStartBit getBits getRegDataForStrSafe Known descr
  cases strToRegMap.lookup name <;> simp [bind,Except.bind,pure,Except.pure]

def takesIP (injectTo : String) (instr : CsInsn) : Bool :=
  (isIn injectTo "c" && isControlInstr instr) || (isIn injectTo "o" && !isControlInstr instr)

def ofIP (injectTo : String) (instr : CsInsn) : Collected :=
  let rip := descr false "rip"
  if takesIP injectTo instr then ⟨[rip],[rip],[rip]⟩ else {}

theorem collectIP_ok_iff (injectTo : String) (instr : CsInsn) (regs next : Collected) :
    collectIP injectTo instr regs = .ok next ↔ next = regs ++ ofIP injectTo instr := by
  unfold collectIP ofIP takesIP
  split
  · have known : Known "rip" := by decide
    rw [looked_up]
    simp [known,pure,Except.pure,collected_eq_iff,descr,eq_comm]
  · simp [append_empty,pure,Except.pure,eq_comm]

def implicitRead (cs : Capstone) (id : Nat) : Collected := {rRegs := [descr false (cs.regName id)]}

def implicitWrite (cs : Capstone) (id : Nat) : Collected := {wRegs := [descr true (cs.regName id)]}

def ofImplicit (cs : Capstone) (injectTo : String) (instr : CsInsn) : Collected :=
  if isIn injectTo "i" then
    gather (implicitRead cs) instr.regsRead ++ gather (implicitWrite cs) instr.regsWrite
  else {}

def ImplicitKnown (cs : Capstone) (injectTo : String) (instr : CsInsn) : Prop :=
  isIn injectTo "i" → ∀ id ∈ instr.regsRead ++ instr.regsWrite, Known (cs.regName id)

instance (cs : Capstone) (injectTo : String) (instr : CsInsn) : Decidable (ImplicitKnown cs injectTo instr) :=
  inferInstanceAs (Decidable (_ → _))

theorem collectImplicit_ok_iff (cs : Capstone) (injectTo : String) (instr : CsInsn)
    (regs next : Collected) :
    collectImplicit cs injectTo instr regs = .ok next ↔
      ImplicitKnown cs injectTo instr ∧ next = regs ++ ofImplicit cs injectTo instr := by
  unfold collectImplicit ImplicitKnown ofImplicit
  split
  · next implicit =>
    have reads := foldlM_gather (fun (regs : Collected) id => do
      let data ← getRegDataForStrSafe (cs.regName id)
      return {regs with rRegs := regs.rRegs ++ [⟨cs.regName id,data.startBit,data.bits,false⟩]})
      (fun id => Known (cs.regName id)) (implicitRead cs) (by
        intro regs id next
        rw [looked_up]
        simp [implicitRead,descr,pure,Except.pure,collected_eq_iff,eq_comm])
    have writes := foldlM_gather (fun (regs : Collected) id => do
      let data ← getRegDataForStrSafe (cs.regName id)
      return {regs with wRegs := regs.wRegs ++ [⟨cs.regName id,data.startBit,data.bits,true⟩]})
      (fun id => Known (cs.regName id)) (implicitWrite cs) (by
        intro regs id next
        rw [looked_up]
        simp [implicitWrite,descr,pure,Except.pure,collected_eq_iff,eq_comm])
    constructor
    · intro ok
      obtain ⟨middle,one,two⟩ := except_bind_ok _ _ _ ok
      obtain ⟨known,rfl⟩ := (reads _ _ _).mp one
      obtain ⟨known',rfl⟩ := (writes _ _ _).mp two
      exact ⟨fun _ => List.forall_mem_append.mpr ⟨known,known'⟩,append_append _ _ _⟩
    · rintro ⟨known,rfl⟩
      obtain ⟨known,known'⟩ := List.forall_mem_append.mp (known implicit)
      rw [(reads _ _ _).mpr ⟨known,rfl⟩]
      exact (writes _ _ _).mpr ⟨known',(append_append _ _ _).symm⟩
  · next explicitOnly => simp [explicitOnly,append_empty,pure,Except.pure,eq_comm]

def addressPart (cs : Capstone) (id : Nat) : Collected :=
  let descr := descr false (cs.regName id)
  if id = 0 then {} else {rRegs := [descr],allRegs := [descr]}

def ofOperand (cs : Capstone) : X86Op → Collected
  | .reg id access =>
    let written := descr true (cs.regName id)
    let descr := descr false (cs.regName id)
    if access &&& csAcWrite ≠ 0 then {wRegs := [written],allRegs := [written]}
    else if access &&& csAcRead ≠ 0 then {rRegs := [descr],allRegs := [descr]}
    else {allRegs := [descr]}
  | .mem segment base index => gather (addressPart cs) [segment,base,index]
  | .other => {}

def OperandKnown (cs : Capstone) : X86Op → Prop
  | .reg id _ => Known (cs.regName id)
  | .mem segment base index => ∀ id ∈ [segment,base,index], id ≠ 0 → Known (cs.regName id)
  | .other => True

instance (cs : Capstone) : (operand : X86Op) → Decidable (OperandKnown cs operand)
  | .reg id _ => inferInstanceAs (Decidable (Known (cs.regName id)))
  | .mem segment base index =>
    inferInstanceAs (Decidable (∀ id ∈ [segment,base,index], id ≠ 0 → Known (cs.regName id)))
  | .other => isTrue trivial

theorem collectOperand_ok_iff (cs : Capstone) (regs : Collected) (operand : X86Op) (next : Collected) :
    collectOperand cs regs operand = .ok next ↔
      OperandKnown cs operand ∧ next = regs ++ ofOperand cs operand := by
  cases operand with
  | reg id access =>
    rw [collectOperand,fields_looked_up]
    simp only [OperandKnown,ofOperand]
    split
    · simp [descr,pure,Except.pure,collected_eq_iff,eq_comm]
    · split <;> simp [descr,pure,Except.pure,collected_eq_iff,eq_comm]
  | mem segment base index =>
    refine foldlM_gather _ (fun id => id ≠ 0 → Known (cs.regName id)) (addressPart cs) ?_ _ _ _
    intro regs id next
    by_cases absent : id = 0
    · simp [absent,addressPart,append_empty,pure,Except.pure,eq_comm]
    · simp only [if_neg absent,fields_looked_up]
      simp [absent,addressPart,descr,pure,Except.pure,collected_eq_iff,eq_comm]
  | other => simp [collectOperand,OperandKnown,ofOperand,append_empty,pure,Except.pure,eq_comm]

def ofExplicit (cs : Capstone) (injectTo : String) (instr : CsInsn) : Collected :=
  if isIn injectTo "e" then gather (ofOperand cs) instr.operands else {}

def ExplicitKnown (cs : Capstone) (injectTo : String) (instr : CsInsn) : Prop :=
  isIn injectTo "e" → ∀ operand ∈ instr.operands, OperandKnown cs operand

instance (cs : Capstone) (injectTo : String) (instr : CsInsn) : Decidable (ExplicitKnown cs injectTo instr) :=
  inferInstanceAs (Decidable (_ → _))

theorem collectExplicit_ok_iff (cs : Capstone) (injectTo : String) (instr : CsInsn)
    (regs next : Collected) :
    collectExplicit cs injectTo instr regs = .ok next ↔
      ExplicitKnown cs injectTo instr ∧ next = regs ++ ofExplicit cs injectTo instr := by
  unfold collectExplicit ExplicitKnown ofExplicit
  split
  · next explicit =>
    rw [foldlM_gather _ _ _ (collectOperand_ok_iff cs)]
    simp [explicit]
  · next hidden => simp [hidden,append_empty,pure,Except.pure,eq_comm]

def gathered (cs : Capstone) (injectTo : String) (instr : CsInsn) : Collected :=
  ofIP injectTo instr ++ ofImplicit cs injectTo instr ++ ofExplicit cs injectTo instr

def Decodes {σ : Type} (T : Tracee σ) (cs : Capstone) (ip : BitVec 64) (s : σ) (instr : CsInsn) : Prop :=
  ∃ childMem s', exec (copyInstr T ip) s = (.ok childMem,s') ∧ cs.disasm (childMem.take 8) = some instr

theorem getInstrRegisters_ok {σ : Type} (T : Tracee σ) (cs : Capstone) (opts : Options) (ip : BitVec 64)
    (instr : CsInsn) (regs : Collected) (s s' : σ) (decoded : Decodes T cs ip s instr)
    (ok : exec (getInstrRegisters T cs opts ip) s = (.ok regs,s')) :
    ImplicitKnown cs opts.injectTo instr ∧ ExplicitKnown cs opts.injectTo instr ∧
      regs = gathered cs opts.injectTo instr := by
  obtain ⟨childMem,copied,ran,decoded⟩ := decoded
  rw [getInstrRegisters,exec_bind_of _ _ _ _ _ ran,decoded] at ok
  obtain ⟨first,_,one,ok⟩ := bind_ok _ _ _ _ _ ok
  obtain ⟨second,_,two,ok⟩ := bind_ok _ _ _ _ _ ok
  obtain rfl := (collectIP_ok_iff _ _ _ _).mp (lift_ok _ _ _ _ one).1
  obtain ⟨implicit,rfl⟩ := (collectImplicit_ok_iff _ _ _ _ _).mp (lift_ok _ _ _ _ two).1
  obtain ⟨explicit,rfl⟩ := (collectExplicit_ok_iff _ _ _ _ _).mp (lift_ok _ _ _ _ ok).1
  exact ⟨implicit,explicit,by rw [empty_append]; rfl⟩

theorem getInstrRegisters_returns {σ : Type} (T : Tracee σ) (cs : Capstone) (opts : Options)
    (ip : BitVec 64) (instr : CsInsn) (childMem : List Byte) (s s' : σ)
    (ran : exec (copyInstr T ip) s = (.ok childMem,s')) (decoded : cs.disasm (childMem.take 8) = some instr)
    (implicit : ImplicitKnown cs opts.injectTo instr) (explicit : ExplicitKnown cs opts.injectTo instr) :
    exec (getInstrRegisters T cs opts ip) s = (.ok (gathered cs opts.injectTo instr),s') := by
  have one : collectIP opts.injectTo instr {} = .ok (ofIP opts.injectTo instr) :=
    (collectIP_ok_iff _ _ _ _).mpr (empty_append _).symm
  have two := (collectImplicit_ok_iff cs opts.injectTo instr (ofIP opts.injectTo instr) _).mpr
    ⟨implicit,rfl⟩
  have three : collectExplicit cs opts.injectTo instr _ = .ok (gathered cs opts.injectTo instr) :=
    (collectExplicit_ok_iff _ _ _ _ _).mpr ⟨explicit,rfl⟩
  rw [getInstrRegisters,exec_bind_of _ _ _ _ _ ran,decoded]
  dsimp only
  rw [exec_bind_of _ _ _ _ _ (by rw [exec_lift,one]),exec_bind_of _ _ _ _ _ (by rw [exec_lift,two]),
    exec_lift,three]

def names (regs : RegsVec) : List String := regs.map (·.name)

def AllIsUnion (regs : Collected) : Prop :=
  ∀ name, name ∈ names regs.allRegs ↔ name ∈ names regs.rRegs ∨ name ∈ names regs.wRegs

def operandNames (cs : Capstone) : X86Op → List String
  | .reg id _ => [cs.regName id]
  | .mem segment base index => ([segment,base,index].filter (· ≠ 0)).map cs.regName
  | .other => []

def unaccessed : X86Op → Bool
  | .reg _ access => access &&& csAcWrite == 0 && access &&& csAcRead == 0
  | _ => false

def ipNames (injectTo : String) (instr : CsInsn) : List String :=
  if takesIP injectTo instr then ["rip"] else []

def implicitNames (cs : Capstone) (injectTo : String) (instr : CsInsn) : List String :=
  if isIn injectTo "i" then (instr.regsRead ++ instr.regsWrite).map cs.regName else []

def explicitNames (cs : Capstone) (injectTo : String) (instr : CsInsn) (counts : X86Op → Bool) :
    List String :=
  if isIn injectTo "e" then (instr.operands.filter counts).flatMap (operandNames cs) else []

theorem names_ofIP (injectTo : String) (instr : CsInsn) :
    names (ofIP injectTo instr).wRegs = ipNames injectTo instr ∧
      names (ofIP injectTo instr).rRegs = ipNames injectTo instr ∧
      names (ofIP injectTo instr).allRegs = ipNames injectTo instr := by
  unfold ofIP ipNames
  split <;> simp [names,descr]

theorem names_ofImplicit (cs : Capstone) (injectTo : String) (instr : CsInsn) (name : String) :
    (name ∈ names (ofImplicit cs injectTo instr).rRegs ∨
      name ∈ names (ofImplicit cs injectTo instr).wRegs ↔ name ∈ implicitNames cs injectTo instr) ∧
    names (ofImplicit cs injectTo instr).allRegs = [] := by
  unfold ofImplicit implicitNames
  split <;> simp [names,gather,implicitRead,implicitWrite,descr]

theorem names_ofOperand (cs : Capstone) (operand : X86Op) (name : String) :
    (name ∈ names (ofOperand cs operand).rRegs ∨ name ∈ names (ofOperand cs operand).wRegs ↔
      unaccessed operand = false ∧ name ∈ operandNames cs operand) ∧
    (name ∈ names (ofOperand cs operand).allRegs ↔ name ∈ operandNames cs operand) := by
  cases operand with
  | reg id access =>
    by_cases written : access &&& csAcWrite = 0
    · by_cases read : access &&& csAcRead = 0 <;>
        simp [ofOperand,unaccessed,operandNames,names,written,read,descr]
    · simp [ofOperand,unaccessed,operandNames,names,written,descr]
  | mem segment base index =>
    by_cases segment = 0 <;> by_cases base = 0 <;> by_cases index = 0 <;>
      simp_all [ofOperand,unaccessed,operandNames,names,gather,addressPart,descr]
  | other => simp [ofOperand,unaccessed,operandNames,names]

theorem names_ofExplicit (cs : Capstone) (injectTo : String) (instr : CsInsn) (name : String) :
    (name ∈ names (ofExplicit cs injectTo instr).rRegs ∨
      name ∈ names (ofExplicit cs injectTo instr).wRegs ↔
        name ∈ explicitNames cs injectTo instr (!unaccessed ·)) ∧
    (name ∈ names (ofExplicit cs injectTo instr).allRegs ↔
      name ∈ explicitNames cs injectTo instr fun _ => true) := by
  unfold ofExplicit explicitNames
  split
  · have each (operand : X86Op) := names_ofOperand cs operand name
    simp only [names,gather,List.map_flatMap,List.mem_flatMap,List.mem_filter] at each ⊢
    refine ⟨?_,by simp [each]⟩
    rw [← exists_or]
    refine exists_congr fun operand => ?_
    rw [← and_or_left,(each operand).1]
    simp [and_assoc]
  · simp [names]

theorem mem_names_append (a b : RegsVec) (name : String) :
    name ∈ names (a ++ b) ↔ name ∈ names a ∨ name ∈ names b := by simp [names]

theorem names_gathered (cs : Capstone) (injectTo : String) (instr : CsInsn) (name : String) :
    (name ∈ names (gathered cs injectTo instr).rRegs ∨ name ∈ names (gathered cs injectTo instr).wRegs ↔
      name ∈ ipNames injectTo instr ∨ name ∈ implicitNames cs injectTo instr ∨
        name ∈ explicitNames cs injectTo instr (!unaccessed ·)) ∧
    (name ∈ names (gathered cs injectTo instr).allRegs ↔
      name ∈ ipNames injectTo instr ∨ name ∈ explicitNames cs injectTo instr fun _ => true) := by
  have regroup (ip read write reads writes : Prop) : ((ip ∨ read) ∨ reads) ∨ ((ip ∨ write) ∨ writes) ↔
      ip ∨ (read ∨ write) ∨ reads ∨ writes := by tauto
  obtain ⟨ipW,ipR,ipAll⟩ := names_ofIP injectTo instr
  obtain ⟨accessed,separate⟩ := names_ofImplicit cs injectTo instr name
  obtain ⟨operands,all⟩ := names_ofExplicit cs injectTo instr name
  rw [← accessed,← operands,← all,gathered]
  simp only [append_wRegs,append_rRegs,append_allRegs,mem_names_append,ipW,ipR,ipAll,separate]
  exact ⟨regroup _ _ _ _ _,by simp⟩

/-- Another step of the collection takes what the implicit lists contribute, and what an
operand without access does. -/
structure Covered (cs : Capstone) (injectTo : String) (instr : CsInsn) : Prop where
  implicit : ∀ name ∈ implicitNames cs injectTo instr,
    name ∈ ipNames injectTo instr ∨ name ∈ explicitNames cs injectTo instr fun _ => true
  unaccessed : ∀ name ∈ explicitNames cs injectTo instr unaccessed,
    name ∈ ipNames injectTo instr ∨ name ∈ implicitNames cs injectTo instr ∨
      name ∈ explicitNames cs injectTo instr (!unaccessed ·)

theorem explicitNames_split (cs : Capstone) (injectTo : String) (instr : CsInsn) (counts : X86Op → Bool)
    (name : String) :
    name ∈ explicitNames cs injectTo instr (fun _ => true) ↔
      name ∈ explicitNames cs injectTo instr counts ∨ name ∈ explicitNames cs injectTo instr (!counts ·) := by
  unfold explicitNames
  split
  · simp only [List.mem_flatMap,List.mem_filter,← exists_or]
    refine exists_congr fun operand => ?_
    cases counts operand <;> simp
  · simp

theorem allRegs_union_iff {σ : Type} (T : Tracee σ) (cs : Capstone) (opts : Options) (ip : BitVec 64)
    (instr : CsInsn) (regs : Collected) (s s' : σ) (decoded : Decodes T cs ip s instr)
    (ok : exec (getInstrRegisters T cs opts ip) s = (.ok regs,s')) :
    AllIsUnion regs ↔ Covered cs opts.injectTo instr := by
  obtain ⟨_,_,rfl⟩ := getInstrRegisters_ok T cs opts ip instr regs s s' decoded ok
  have split (name : String) := explicitNames_split cs opts.injectTo instr unaccessed name
  have union (name : String) := names_gathered cs opts.injectTo instr name
  constructor
  · intro same
    refine ⟨fun name implicit => ?_,fun name operand => ?_⟩
    · exact (union name).2.mp ((same name).mpr ((union name).1.mpr (.inr (.inl implicit))))
    · exact (union name).1.mp ((same name).mp ((union name).2.mpr (.inr ((split name).mpr (.inl operand)))))
  · intro covered name
    rw [(union name).1,(union name).2]
    constructor
    · rintro (ip | operand)
      · exact .inl ip
      · rcases (split name).mp operand with without | accessed
        · exact covered.unaccessed name without
        · exact .inr (.inr accessed)
    · rintro (ip | implicit | accessed)
      · exact .inl ip
      · exact covered.implicit name implicit
      · exact .inr ((split name).mpr (.inr accessed))

/-- `mul rbx`: it reads rax and writes rax and rdx without naming them. -/
def mul : CsInsn := ⟨[],[1],[1,2],[.reg 3 csAcRead]⟩

/-- `mov rax,rbx` -/
def movReg : CsInsn := ⟨[],[],[],[.reg 1 csAcWrite,.reg 3 csAcRead]⟩

def decodesTo (instr : CsInsn) : Capstone :=
  ⟨fun _ => some instr,fun id => ["","rax","rdx","rbx","rip"].getD id ""⟩

theorem mapped_copied :
    ∃ m, exec (copyInstr (tracee acceptingEnv) 0) mapped = (.ok (List.replicate 16 0),m) := by
  have bytes : (exec (copyInstr (tracee acceptingEnv) 0) mapped).1 = .ok (List.replicate 16 0) := by
    decide +kernel
  exact ⟨(exec (copyInstr (tracee acceptingEnv) 0) mapped).2,Prod.ext bytes rfl⟩

theorem mapped_decodes (instr : CsInsn) :
    Decodes (tracee acceptingEnv) (decodesTo instr) 0 mapped instr := by
  obtain ⟨m,copied⟩ := mapped_copied
  exact ⟨_,m,copied,rfl⟩

theorem mapped_collects (opts : Options) (instr : CsInsn)
    (implicit : ImplicitKnown (decodesTo instr) opts.injectTo instr)
    (explicit : ExplicitKnown (decodesTo instr) opts.injectTo instr) :
    ∃ m, exec (getInstrRegisters (tracee acceptingEnv) (decodesTo instr) opts 0) mapped =
      (.ok (gathered (decodesTo instr) opts.injectTo instr),m) := by
  obtain ⟨m,copied⟩ := mapped_copied
  exact ⟨m,getInstrRegisters_returns _ _ opts 0 instr _ _ _ copied rfl implicit explicit⟩

def rwei : CommandLine := {injectTo := some "rwei"}

theorem mul_rax_missing : sanityChecks rwei = .ok () ∧
    ∃ regs m, exec (getInstrRegisters (tracee acceptingEnv) (decodesTo mul) rwei.options 0) mapped =
      (.ok regs,m) ∧ ¬ AllIsUnion regs := by
  obtain ⟨m,returned⟩ := mapped_collects rwei.options mul (by decide) (by decide)
  refine ⟨by decide,_,m,returned,fun same => ?_⟩
  have listed := (same "rax").mpr (by decide)
  revert listed
  decide

theorem mul_covered : AllIsUnion (gathered (decodesTo mul) "rwe" mul) := by
  obtain ⟨m,returned⟩ := mapped_collects {} mul (by decide) (by decide)
  refine (allRegs_union_iff _ _ _ _ mul _ _ _ (mapped_decodes mul) returned).mpr ⟨?_,?_⟩
  · decide
  · decide

end Zofi.Collection
