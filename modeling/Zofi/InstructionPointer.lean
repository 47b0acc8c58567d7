import Zofi.Collection

/-! When the instruction pointer can be selected: besides the letters that ask for it, an
operand or an implicit list can offer it. -/
namespace Zofi.InstructionPointer
open Sys Model.Utils Model.Regs Model.RegManip Model.OptionsParser Semantics.StoppedThread
open Selection BitFlipRun VectorFlip Collection

def ipRegisters : List String := ["rip","eip","ip"]

def OnlyOnRequest {σ : Type} (T : Tracee σ) (cs : Capstone) (opts : Options) (ip : BitVec 64) (s : σ)
    (instr : CsInsn) : Prop :=
  ∀ (rand : Prog Halt σ Nat) (reg : RegDescr) (bit : Nat) (s' : σ),
    exec (getSelectedRegAndBit {T with rand} cs opts ip) s = (.ok (reg,bit,true),s') →
    reg.name ∈ ipRegisters → takesIP opts.injectTo instr = true

def route (r w : Bool) (regs : Collected) : RegsVec :=
  if r && w then regs.allRegs else if r then regs.rRegs else regs.wRegs

def routeOf (injectTo : String) (regs : Collected) : RegsVec :=
  route (isIn injectTo "r") (isIn injectTo "w") regs

theorem isIn_accepted (line : CommandLine) (accepted : sanityChecks line = .ok ()) :
    (isIn line.options.injectTo "r" || isIn line.options.injectTo "w") = true := by
  obtain ⟨_,_,rest⟩ := except_bind_ok _ _ _ accepted
  obtain ⟨_,checked,_⟩ := except_bind_ok _ _ _ rest
  obtain ⟨_,_,checked⟩ := except_bind_ok _ _ _ checked
  obtain ⟨_,checked,_⟩ := except_bind_ok _ _ _ checked
  unfold userDieIf at checked
  split at checked
  · simp at checked
  · next listed => simpa [Bool.or_eq_true,or_iff_not_imp_left] using listed

theorem candidates_route (opts : Options) (regs : Collected) (unforced : opts.forceInjectToReg = none)
    (letter : (isIn opts.injectTo "r" || isIn opts.injectTo "w") = true) :
    candidates opts regs = .ok (routeOf opts.injectTo regs) := by
  rw [candidates,unforced]
  dsimp only
  rw [letter]
  rfl

def operandOffers (cs : Capstone) (r w : Bool) (name : String) : X86Op → Bool
  | .reg id access =>
    name == cs.regName id &&
      if access &&& csAcWrite ≠ 0 then w else if access &&& csAcRead ≠ 0 then r else r && w
  | .mem segment base index => r && [segment,base,index].any fun id => id ≠ 0 && name == cs.regName id
  | .other => false

/-- With both letters the implicit lists are not looked at. -/
def implicitOffers (cs : Capstone) (r w : Bool) (name : String) (instr : CsInsn) : Bool :=
  (r && !w && instr.regsRead.any (name == cs.regName ·)) ||
    (w && !r && instr.regsWrite.any (name == cs.regName ·))

def offers (cs : Capstone) (injectTo : String) (instr : CsInsn) (name : String) : Bool :=
  let r := isIn injectTo "r"
  let w := isIn injectTo "w"
  (isIn injectTo "i" && implicitOffers cs r w name instr) ||
    (isIn injectTo "e" && instr.operands.any (operandOffers cs r w name))

theorem mem_route_append (r w : Bool) (a b : Collected) (name : String) :
    name ∈ names (route r w (a ++ b)) ↔ name ∈ names (route r w a) ∨ name ∈ names (route r w b) := by
  cases r <;> cases w <;> simp [route,names]

theorem mem_route_gather {α : Type} (r w : Bool) (emit : α → Collected) (items : List α) (name : String) :
    name ∈ names (route r w (gather emit items)) ↔ ∃ item ∈ items, name ∈ names (route r w (emit item)) := by
  have routed : route r w (gather emit items) = items.flatMap fun item => route r w (emit item) := by
    cases r <;> cases w <;> rfl
  rw [routed,names,List.map_flatMap,List.mem_flatMap]
  rfl

theorem mem_route_ip (r w : Bool) (injectTo : String) (instr : CsInsn) (name : String) :
    name ∈ names (route r w (ofIP injectTo instr)) ↔ takesIP injectTo instr = true ∧ name = "rip" := by
  unfold ofIP
  split <;> cases r <;> cases w <;> simp_all [route,names,descr]

theorem mem_route_implicit (cs : Capstone) (r w : Bool) (injectTo : String) (instr : CsInsn) (name : String)
    (letter : (r || w) = true) :
    name ∈ names (route r w (ofImplicit cs injectTo instr)) ↔
      isIn injectTo "i" = true ∧ implicitOffers cs r w name instr = true := by
  unfold ofImplicit implicitOffers
  split
  · next implicit =>
    rw [mem_route_append,mem_route_gather,mem_route_gather]
    cases r <;> cases w <;> simp_all [route,names,implicitRead,implicitWrite,descr]
  · next explicitOnly => cases r <;> cases w <;> simp [route,names,explicitOnly]

theorem mem_route_operand (cs : Capstone) (r w : Bool) (operand : X86Op) (name : String)
    (letter : (r || w) = true) :
    name ∈ names (route r w (ofOperand cs operand)) ↔ operandOffers cs r w name operand = true := by
  cases operand with
  | reg id access =>
    unfold ofOperand operandOffers
    by_cases written : access &&& csAcWrite = 0 <;> by_cases read : access &&& csAcRead = 0 <;>
      cases r <;> cases w <;> simp_all [route,names,descr]
  | mem segment base index =>
    have part (id : Nat) : name ∈ names (route r w (addressPart cs id)) ↔
        r = true ∧ id ≠ 0 ∧ name = cs.regName id := by
      unfold addressPart
      by_cases absent : id = 0 <;> cases r <;> cases w <;> simp_all [route,names,descr]
    rw [ofOperand,mem_route_gather]
    simp only [part,operandOffers,Bool.and_eq_true,List.any_eq_true,decide_eq_true_eq,beq_iff_eq]
    grind
  | other => cases r <;> cases w <;> simp [ofOperand,operandOffers,route,names]

theorem mem_route_explicit (cs : Capstone) (r w : Bool) (injectTo : String) (instr : CsInsn) (name : String)
    (letter : (r || w) = true) :
    name ∈ names (route r w (ofExplicit cs injectTo instr)) ↔
      isIn injectTo "e" = true ∧ instr.operands.any (operandOffers cs r w name) = true := by
  unfold ofExplicit
  split
  · next explicit =>
    rw [mem_route_gather]
    simp [explicit,mem_route_operand cs r w _ name letter]
  · next hidden => cases r <;> cases w <;> simp [route,names,hidden]

theorem mem_routeOf (cs : Capstone) (injectTo : String) (instr : CsInsn) (name : String)
    (letter : (isIn injectTo "r" || isIn injectTo "w") = true) :
    name ∈ names (routeOf injectTo (gathered cs injectTo instr)) ↔
      (takesIP injectTo instr = true ∧ name = "rip") ∨ offers cs injectTo instr name = true := by
  rw [routeOf,gathered,mem_route_append,mem_route_append,mem_route_ip,
    mem_route_implicit _ _ _ _ _ _ letter,mem_route_explicit _ _ _ _ _ _ letter,offers]
  simp [or_assoc]

/-- A forced bit can lie outside the register; the attempt is then given up. -/
def bitAllowed (opts : Options) (name : String) : Bool :=
  let reg := descr false name
  match opts.forceInjectToBit with
  | none => true
  | some forcedBit =>
    match strtolSafe forcedBit with
    | .ok value => decide (reg.startBit ≤ toUnsigned value ∧ toUnsigned value < reg.startBit + reg.bits)
    | .error _ => false

theorem described_fields (reg : RegDescr) (described : Described reg) :
    reg.startBit = (descr false reg.name).startBit ∧ reg.bits = (descr false reg.name).bits := by
  obtain ⟨data,row,start,width⟩ := described
  simp [descr,row,start,width]

theorem selectedBit_allowed {σ : Type} (T : Tracee σ) (opts : Options) (reg : RegDescr) (bit : Nat) (s s' : σ)
    (described : Described reg) (ok : exec (selectedBit T opts reg) s = (.ok (reg,bit,true),s')) :
    bitAllowed opts reg.name = true := by
  obtain ⟨start,width⟩ := described_fields reg described
  unfold selectedBit at ok
  unfold bitAllowed
  split at ok
  · next forcedBit forced =>
    obtain ⟨value,_,parsed,ok⟩ := bind_ok _ _ _ _ _ ok
    have same := (pure_ok _ _ _ _ ok).1
    simp only [Prod.mk.injEq,true_and] at same
    rw [forced]
    simp only [(lift_ok _ _ _ _ parsed).1,← start,← width]
    exact same.2.symm
  · next free => rw [free]

theorem selected_listed {σ : Type} (T : Tracee σ) (cs : Capstone) (opts : Options) (ip : BitVec 64)
    (instr : CsInsn) (reg : RegDescr) (bit : Nat) (s s' : σ) (decoded : Decodes T cs ip s instr)
    (unforced : opts.forceInjectToReg = none)
    (letter : (isIn opts.injectTo "r" || isIn opts.injectTo "w") = true)
    (ok : exec (getSelectedRegAndBit T cs opts ip) s = (.ok (reg,bit,true),s')) :
    ImplicitKnown cs opts.injectTo instr ∧ ExplicitKnown cs opts.injectTo instr ∧
      reg.name ∈ names (routeOf opts.injectTo (gathered cs opts.injectTo instr)) ∧
      bitAllowed opts reg.name = true := by
  have described := (getSelectedRegAndBit_selected T cs opts ip reg bit s s' ok).1
  obtain ⟨regs,_,collected,ok⟩ := bind_ok _ _ _ _ _ ok
  obtain ⟨implicit,explicit,rfl⟩ := getInstrRegisters_ok T cs opts ip instr regs _ _ decoded collected
  obtain ⟨vec,_,listed,ok⟩ := bind_ok _ _ _ _ _ ok
  obtain rfl := Except.ok.inj ((candidates_route _ _ unforced letter).symm.trans (lift_ok _ _ _ _ listed).1)
  split at ok
  · have same := (pure_ok _ _ _ _ ok).1
    simp at same
  · next occupied =>
    obtain ⟨index,_,chosen,ok⟩ := bind_ok _ _ _ _ _ ok
    have inside := selectedIndex_below _ _ _ _ _ _
      (fun empty => occupied (List.length_eq_zero_iff.mp empty)) chosen
    obtain ⟨rfl,_⟩ := selectedBit_inside _ _ _ _ _ _ _ ok
    refine ⟨implicit,explicit,?_,selectedBit_allowed _ _ _ _ _ _ described ok⟩
    rw [List.getD_eq_getElem?_getD,List.getElem?_eq_getElem inside]
    exact List.mem_map.mpr ⟨_,List.getElem_mem inside,rfl⟩

theorem selectedBit_returns {σ : Type} (T : Tracee σ) (opts : Options) (reg : RegDescr) (draw : Nat) (s : σ)
    (drawn : T.rand = pure draw) (described : Described reg) (positive : 0 < reg.bits)
    (allowed : bitAllowed opts reg.name = true) :
    ∃ bit, exec (selectedBit T opts reg) s = (.ok (reg,bit,true),s) := by
  obtain ⟨start,width⟩ := described_fields reg described
  unfold bitAllowed at allowed
  unfold selectedBit
  split at allowed
  · next free =>
    have below := Nat.mod_lt draw positive
    have nonzero : reg.bits ≠ 0 := by omega
    have inRange : (decide (reg.startBit ≤ reg.startBit + draw % reg.bits) &&
        decide (reg.startBit + draw % reg.bits < reg.startBit + reg.bits)) = true := by simp [below]
    rw [free]
    simp only [randSafe,drawn,exec_bind,exec_pure,exec_lift,assert,if_pos nonzero,if_pos inRange]
    exact ⟨_,rfl⟩
  · next forcedBit forced =>
    rw [forced]
    split at allowed
    · next value parsed =>
      simp only [exec_bind,exec_lift,exec_pure,parsed]
      dsimp only at allowed
      rw [← start,← width] at allowed
      exact ⟨_,by rw [allowed]⟩
    · simp at allowed

theorem listed_selectable {σ : Type} (T : Tracee σ) (cs : Capstone) (opts : Options) (ip : BitVec 64)
    (instr : CsInsn) (name : String) (s : σ) (decoded : Decodes T cs ip s instr)
    (unforced : opts.forceInjectToReg = none)
    (letter : (isIn opts.injectTo "r" || isIn opts.injectTo "w") = true)
    (implicit : ImplicitKnown cs opts.injectTo instr) (explicit : ExplicitKnown cs opts.injectTo instr)
    (listed : name ∈ names (routeOf opts.injectTo (gathered cs opts.injectTo instr)))
    (positive : 0 < (descr false name).bits) (allowed : bitAllowed opts name = true) :
    ∃ draw reg bit s', reg.name = name ∧
      exec (getSelectedRegAndBit {T with rand := pure draw} cs opts ip) s = (.ok (reg,bit,true),s') := by
  obtain ⟨reg,member,rfl⟩ := List.mem_map.mp listed
  obtain ⟨draw,inside,found⟩ := List.getElem_of_mem member
  obtain ⟨childMem,s',copied,instrOf⟩ := decoded
  have collected := getInstrRegisters_returns {T with rand := pure draw} cs opts ip instr childMem s s'
    copied instrOf implicit explicit
  have described : Described reg := by
    refine candidates_described opts _ (getInstrRegisters_described _ _ _ _ _ _ _ collected) _
      (candidates_route opts _ unforced letter) reg member
  obtain ⟨_,width⟩ := described_fields reg described
  obtain ⟨bit,selected⟩ := selectedBit_returns {T with rand := pure draw} opts reg draw s' rfl described
    (by omega) allowed
  refine ⟨draw,reg,bit,s',rfl,?_⟩
  rw [getSelectedRegAndBit,exec_bind_of _ _ _ _ _ collected,
    exec_bind_of _ _ _ _ _ (by rw [exec_lift,candidates_route opts _ unforced letter]),
    if_neg (List.ne_nil_of_mem member)]
  have index : exec (selectedIndex {T with rand := pure draw} opts
      (routeOf opts.injectTo (gathered cs opts.injectTo instr)).length) s' = (.ok draw,s') := by
    rw [selectedIndex,unforced]
    simp [randSafe,Nat.mod_eq_of_lt inside]
  rw [exec_bind_of _ _ _ _ _ index,List.getD_eq_getElem?_getD,List.getElem?_eq_getElem inside,found]
  exact selected

theorem ip_bits : ∀ name ∈ ipRegisters, 0 < (descr false name).bits := by decide

/-- The letters ask for the instruction pointer, or the tool stops at an unknown register, or
no operand and no implicit list that is looked at offers it with a bit that may be flipped. -/
def IPProtected (cs : Capstone) (opts : Options) (instr : CsInsn) : Prop :=
  takesIP opts.injectTo instr = true ∨
    ¬ (ImplicitKnown cs opts.injectTo instr ∧ ExplicitKnown cs opts.injectTo instr) ∨
    ∀ name ∈ ipRegisters, offers cs opts.injectTo instr name = true → bitAllowed opts name = false

theorem onlyOnRequest_iff {σ : Type} (T : Tracee σ) (cs : Capstone) (line : CommandLine) (ip : BitVec 64)
    (s : σ) (instr : CsInsn) (accepted : sanityChecks line = .ok ()) (unforced : line.forceInjectToReg = none)
    (decoded : Decodes T cs ip s instr) :
    OnlyOnRequest T cs line.options ip s instr ↔ IPProtected cs line.options instr := by
  have letter := isIn_accepted line accepted
  constructor
  · intro only
    by_contra exposed
    simp only [IPProtected,not_or,Classical.not_not] at exposed
    obtain ⟨unasked,⟨implicit,explicit⟩,offered⟩ := exposed
    push Not at offered
    obtain ⟨name,isIP,offered,allowed⟩ := offered
    have listed := (mem_routeOf cs line.options.injectTo instr name letter).mpr (.inr offered)
    -- some result of rand() draws the register that is exposed
    obtain ⟨draw,reg,bit,s',rfl,selected⟩ := listed_selectable T cs line.options ip instr name s decoded
      unforced letter implicit explicit listed (ip_bits name isIP) (by simpa using allowed)
    exact unasked (only (pure draw) reg bit s' selected isIP)
  · intro covered rand reg bit s' selected isIP
    obtain ⟨implicit,explicit,listed,allowed⟩ := selected_listed {T with rand} cs line.options ip instr reg bit
      s s' decoded unforced letter selected
    rcases covered with asked | unknown | shut
    · exact asked
    · exact absurd ⟨implicit,explicit⟩ unknown
    · rcases (mem_routeOf cs line.options.injectTo instr reg.name letter).mp listed with ⟨asked,_⟩ | offered
      · exact asked
      · rw [shut reg.name isIP offered] at allowed
        simp at allowed

theorem mul_protected : OnlyOnRequest (tracee acceptingEnv) (decodesTo mul) ({} : CommandLine).options 0 mapped mul :=
  (onlyOnRequest_iff _ _ {} _ _ _ (by decide) rfl (mapped_decodes mul)).mpr (.inr (.inr (by decide)))

def load : CsInsn := ⟨[],[],[],[.reg 1 csAcWrite,.mem 0 4 0]⟩

/-- By default neither c nor o is given, and rip is selected as the base of the operand. -/
theorem ripBase_selected : sanityChecks {} = .ok () ∧
    ¬ OnlyOnRequest (tracee acceptingEnv) (decodesTo load) ({} : CommandLine).options 0 mapped load := by
  refine ⟨by decide,fun only => ?_⟩
  have listed : "rip" ∈ names (routeOf "rwe" (gathered (decodesTo load) "rwe" load)) := by decide
  obtain ⟨draw,reg,bit,m,name,selected⟩ := listed_selectable (tracee acceptingEnv) (decodesTo load)
    ({} : CommandLine).options 0 load "rip" mapped (mapped_decodes load) rfl (by decide) (by decide) (by decide)
    listed (by decide) (by decide)
  have asked := only (pure draw) reg bit m selected (by rw [name]; decide)
  revert asked
  decide

end Zofi.InstructionPointer
