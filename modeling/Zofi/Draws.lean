import Zofi.InstructionPointer
import Zofi.InstructionWindow
import Zofi.WrittenNumbers

/-! What the results of rand() select: every register of the vector and every bit of its range,
and nothing else. -/
namespace Zofi.Draws
open Sys Model.Utils Model.Regs Model.RegManip Model.OptionsParser Semantics.StoppedThread
open Selection BitFlipRun VectorFlip Collection InstructionPointer InstructionWindow

variable {σ : Type}

def InRange (reg : RegDescr) (bit : Nat) : Prop := reg.startBit ≤ bit ∧ bit < reg.startBit + reg.bits

instance (reg : RegDescr) (bit : Nat) : Decidable (InRange reg bit) := inferInstanceAs (Decidable (_ ∧ _))

theorem table_rows : ∀ row ∈ strToRegMap, 0 < row.2.bits ∧ row.2.startBit + row.2.bits ≤ 512 := by decide +kernel

theorem lookup_listed (reg : String) (data : RegData) (row : strToRegMap.lookup reg = some data) :
    (reg,data) ∈ strToRegMap := by
  obtain ⟨before,after,split,_⟩ := List.lookup_eq_some_iff.mp row
  rw [split]
  simp

theorem described_row (reg : RegDescr) (described : Described reg) : 0 < reg.bits ∧ reg.startBit + reg.bits ≤ 512 := by
  obtain ⟨data,row,start,width⟩ := described
  rw [start,width]
  exact table_rows _ (lookup_listed reg.name data row)

theorem strtolSafe_check (text : String) : strtolSafe text =
    match strtolCheck text with
    | some value => .ok value
    | none => .error (.userDie ("Bad number: " ++ text)) := by
  unfold strtolSafe strtolCheck
  dsimp only
  split <;> rfl

theorem toUnsigned_small (n : Nat) (small : n < 2^32) : toUnsigned n = n := by
  unfold toUnsigned
  omega

theorem exec_forcedBit (T : Tracee σ) (opts : Options) (reg : RegDescr) (text : String) (s : σ)
    (given : opts.forceInjectToBit = some text) :
    exec (selectedBit T opts reg) s =
      (match strtolCheck text with
      | some value => .ok (reg,toUnsigned value,decide (InRange reg (toUnsigned value)))
      | none => .error (.userDie ("Bad number: " ++ text)),s) := by
  unfold selectedBit
  rw [given]
  dsimp only
  rw [exec_bind,exec_lift,strtolSafe_check]
  cases strtolCheck text <;> rfl

theorem exec_randSafe (env : Env) (m : Machine) (max : Nat) (positive : 0 < max) :
    exec (randSafe (tracee env) max) m = (.ok (env.rand m.drawn % max),{m with drawn := m.drawn + 1}) := by
  have drawn : exec (tracee env).rand m = (.ok (env.rand m.drawn),{m with drawn := m.drawn + 1}) := rfl
  rw [randSafe,exec_bind_of _ _ _ _ _ drawn,if_pos (by omega)]
  rfl

theorem exec_drawnBit (env : Env) (opts : Options) (reg : RegDescr) (m : Machine)
    (free : opts.forceInjectToBit = none) (wide : 0 < reg.bits) :
    exec (selectedBit (tracee env) opts reg) m =
      (.ok (reg,reg.startBit + env.rand m.drawn % reg.bits,true),{m with drawn := m.drawn + 1}) := by
  have below := Nat.mod_lt (env.rand m.drawn) wide
  have inside : (decide (reg.startBit ≤ reg.startBit + env.rand m.drawn % reg.bits) &&
      decide (reg.startBit + env.rand m.drawn % reg.bits < reg.startBit + reg.bits)) = true := by simp [below]
  unfold selectedBit
  rw [free]
  dsimp only
  rw [exec_bind_of _ _ _ _ _ (exec_randSafe env m reg.bits wide),inside]
  rfl

theorem exec_unforced (T : Tracee σ) (cs : Capstone) (opts : Options) (ip : BitVec 64) (regs : Collected) (s s' : σ)
    (unforced : opts.forceInjectToReg = none) (letter : (isIn opts.injectTo "r" || isIn opts.injectTo "w") = true)
    (collected : exec (getInstrRegisters T cs opts ip) s = (.ok regs,s')) :
    exec (getSelectedRegAndBit T cs opts ip) s =
      if routeOf opts.injectTo regs = [] then (.ok ({},0,false),s')
      else exec (do
        let index ← randSafe T (routeOf opts.injectTo regs).length
        selectedBit T opts ((routeOf opts.injectTo regs).getD index {})) s' := by
  have listed : exec (liftM (candidates opts regs) : Prog Halt σ RegsVec) s' = (.ok (routeOf opts.injectTo regs),s') := by
    rw [exec_lift,candidates_route opts regs unforced letter]
  rw [getSelectedRegAndBit,exec_bind_of _ _ _ _ _ collected,exec_bind_of _ _ _ _ _ listed]
  split
  · rfl
  · unfold selectedIndex
    rw [unforced]
    rfl

theorem collected_state (env : Env) (cs : Capstone) (opts : Options) (ip : BitVec 64) (m m' : Machine)
    (outcome : Except Halt Collected)
    (ran : exec (getInstrRegisters (tracee env) cs opts ip) m = (outcome,m')) : m' = m := by
  by_cases copied : Readable m.child.memory ip ∧ Distinct m.child.memory ip
  · rw [exec_getInstrRegisters env cs opts m ip copied.1 copied.2] at ran
    exact (congrArg Prod.snd ran).symm
  · rw [exec_getInstrRegisters_dies env cs opts m ip copied] at ran
    exact (congrArg Prod.snd ran).symm

def selection (env : Env) (cs : Capstone) (opts : Options) (ip : BitVec 64) (m : Machine) (draws : Nat → Nat) :
    Except Halt (RegDescr × Nat × Bool) :=
  (exec (getSelectedRegAndBit (tracee {env with rand := draws}) cs opts ip) m).1

/-- The faults that a vector offers are those that are selected: `draws drawn` and
`draws (drawn + 1)` are the two results of rand(). -/
structure Exhausts (select : (Nat → Nat) → Except Halt (RegDescr × Nat × Bool)) (drawn : Nat) (vec : RegsVec)
    (forcedBit : Option String) : Prop where
  wide : ∀ reg ∈ vec, 0 < reg.bits
  returns : (∀ text, forcedBit = some text → (strtolCheck text).isSome = true) →
    ∀ draws, ∃ result, select draws = .ok result
  empty : vec = [] → ∀ draws, select draws = .ok ({},0,false)
  sound : vec ≠ [] → forcedBit = none →
    ∀ draws, ∃ reg ∈ vec, ∃ bit, InRange reg bit ∧ select draws = .ok (reg,bit,true)
  covered : forcedBit = none → ∀ reg ∈ vec, ∀ bit, InRange reg bit →
    ∃ draws, draws drawn < vec.length ∧ draws (drawn + 1) < reg.bits ∧ select draws = .ok (reg,bit,true)
  forced : vec ≠ [] →
    ∀ (text : String) (n : Nat), forcedBit = some text → strtolCheck text = some (n : Int) → n < 2^31 → ∀ draws,
      ∃ reg, vec[draws drawn % vec.length]? = some reg ∧ select draws = .ok (reg,n,decide (InRange reg n))

def bitOf (reg : RegDescr) (draw : Nat) : Option String → Except Halt (RegDescr × Nat × Bool)
  | none => .ok (reg,reg.startBit + draw % reg.bits,true)
  | some text =>
    match strtolCheck text with
    | some value => .ok (reg,toUnsigned value,decide (InRange reg (toUnsigned value)))
    | none => .error (.userDie ("Bad number: " ++ text))

theorem exec_bitOf (env : Env) (opts : Options) (reg : RegDescr) (m : Machine) (wide : 0 < reg.bits) :
    (exec (selectedBit (tracee env) opts reg) m).1 = bitOf reg (env.rand m.drawn) opts.forceInjectToBit := by
  cases given : opts.forceInjectToBit with
  | none => rw [exec_drawnBit env opts reg m given wide,bitOf]
  | some text => rw [exec_forcedBit (tracee env) opts reg text m given,bitOf]

theorem selection_run (env : Env) (cs : Capstone) (opts : Options) (ip : BitVec 64) (m m' : Machine)
    (regs : Collected) (unforced : opts.forceInjectToReg = none)
    (letter : (isIn opts.injectTo "r" || isIn opts.injectTo "w") = true)
    (wide : ∀ reg ∈ routeOf opts.injectTo regs, 0 < reg.bits)
    (collected : exec (getInstrRegisters (tracee env) cs opts ip) m = (.ok regs,m')) (draws : Nat → Nat) :
    selection env cs opts ip m draws =
      if routeOf opts.injectTo regs = [] then .ok ({},0,false)
      else bitOf ((routeOf opts.injectTo regs).getD (draws m.drawn % (routeOf opts.injectTo regs).length) {})
        (draws (m.drawn + 1)) opts.forceInjectToBit := by
  obtain rfl := collected_state env cs opts ip m m' _ collected
  rw [selection,exec_unforced (tracee {env with rand := draws}) cs opts ip regs m' m' unforced letter collected]
  split
  · rfl
  · next occupied =>
    have some := List.length_pos_of_ne_nil occupied
    have inside := Nat.mod_lt (draws m'.drawn) some
    rw [exec_bind_of _ _ _ _ _ (exec_randSafe {env with rand := draws} m' _ some)]
    apply exec_bitOf
    rw [List.getD_eq_getElem _ _ inside]
    exact wide _ (List.getElem_mem inside)

theorem drawn_member (vec : RegsVec) (occupied : vec ≠ []) (draw : Nat) :
    vec[draw % vec.length]? = some (vec.getD (draw % vec.length) {}) := by
  have inside := Nat.mod_lt draw (List.length_pos_of_ne_nil occupied)
  rw [List.getD_eq_getElem _ _ inside,List.getElem?_eq_getElem inside]

theorem exhausts_of_run (select : (Nat → Nat) → Except Halt (RegDescr × Nat × Bool)) (drawn : Nat) (vec : RegsVec)
    (forcedBit : Option String) (wide : ∀ reg ∈ vec, 0 < reg.bits)
    (run : ∀ draws, select draws = if vec = [] then .ok ({},0,false)
      else bitOf (vec.getD (draws drawn % vec.length) {}) (draws (drawn + 1)) forcedBit) :
    Exhausts select drawn vec forcedBit where
  wide := wide
  empty none draws := by rw [run,if_pos none]
  returns numeric draws := by
    rw [run]
    split
    · exact ⟨_,rfl⟩
    · cases given : forcedBit with
      | none => exact ⟨_,rfl⟩
      | some text =>
        obtain ⟨value,read⟩ := Option.isSome_iff_exists.mp (numeric text given)
        rw [bitOf,read]
        exact ⟨_,rfl⟩
  sound occupied free draws := by
    have member := List.mem_of_getElem? (drawn_member vec occupied (draws drawn))
    have below := Nat.mod_lt (draws (drawn + 1)) (wide _ member)
    refine ⟨_,member,_,⟨Nat.le_add_right _ _,Nat.add_lt_add_left below _⟩,?_⟩
    rw [run,if_neg occupied,free]
    rfl
  covered free reg member bit inRange := by
    obtain ⟨above,below⟩ := inRange
    obtain ⟨index,inside,rfl⟩ := List.getElem_of_mem member
    -- the index and the offset are themselves the numbers to draw
    let draws := fun k => if k = drawn then index else bit - vec[index].startBit
    have first : draws drawn = index := if_pos rfl
    have second : draws (drawn + 1) = bit - vec[index].startBit := if_neg (by omega)
    refine ⟨draws,by rwa [first],by omega,?_⟩
    rw [run,if_neg (List.ne_nil_of_mem member),first,second,Nat.mod_eq_of_lt inside,
      List.getD_eq_getElem _ _ inside,free,bitOf,Nat.mod_eq_of_lt (by omega),Nat.add_sub_cancel' above]
  forced occupied text n given read small draws := by
    refine ⟨_,drawn_member vec occupied (draws drawn),?_⟩
    rw [run,if_neg occupied,given,bitOf,read]
    dsimp only
    rw [toUnsigned_small n (by omega)]

theorem selection_exhausts (env : Env) (cs : Capstone) (line : CommandLine) (ip : BitVec 64) (m m' : Machine)
    (regs : Collected) (accepted : sanityChecks line = .ok ()) (unforced : line.forceInjectToReg = none)
    (collected : exec (getInstrRegisters (tracee env) cs line.options ip) m = (.ok regs,m')) :
    ∃ vec, candidates line.options regs = .ok vec ∧
      Exhausts (selection env cs line.options ip m) m.drawn vec line.forceInjectToBit := by
  have letter := isIn_accepted line accepted
  have routed := candidates_route line.options regs unforced letter
  have described := candidates_described _ _ (getInstrRegisters_described _ _ _ _ _ _ _ collected) _ routed
  have wide : ∀ reg ∈ routeOf line.options.injectTo regs, 0 < reg.bits :=
    fun reg member => (described_row reg (described reg member)).1
  refine ⟨_,routed,exhausts_of_run _ _ _ _ wide fun draws => ?_⟩
  exact selection_run env cs line.options ip m m' regs unforced letter wide collected draws

theorem movReg_exhausts : ∃ vec, candidates ({} : CommandLine).options (gathered (decodesTo movReg) "rwe" movReg) = .ok vec ∧
    vec.length = 2 ∧ Exhausts (selection acceptingEnv (decodesTo movReg) ({} : CommandLine).options 0 mapped) 0 vec none := by
  obtain ⟨m,returned⟩ := mapped_collects ({} : CommandLine).options movReg (by decide) (by decide)
  obtain ⟨vec,offered,exhausts⟩ :=
    selection_exhausts acceptingEnv (decodesTo movReg) {} 0 mapped m _ (by decide) rfl returned
  have two : candidates ({} : CommandLine).options (gathered (decodesTo movReg) "rwe" movReg) =
      .ok (gathered (decodesTo movReg) "rwe" movReg).allRegs := by decide
  obtain rfl := Except.ok.inj (two.symm.trans offered)
  exact ⟨_,offered,by decide,exhausts⟩

end Zofi.Draws
