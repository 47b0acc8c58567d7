import Zofi.Draws

/-! The forced register and the forced bit: what sanityChecks lets through at the start, and what
the selection makes of it at every stop. -/
namespace Zofi.ForcedBit
open Sys Model.Utils Model.Regs Model.RegManip Model.OptionsParser Semantics.StoppedThread
open Selection BitFlipRun VectorFlip Collection InstructionPointer WrittenNumbers Draws

variable {σ : Type}

theorem userDieIf_ok (condition : Bool) (message : String) :
    userDieIf condition message = .ok () ↔ condition = false := by
  unfold userDieIf
  cases condition <;> simp

theorem checkForcedRange_ok (reg : String) (bit : Int) : checkForcedRange reg bit = .ok () ↔
    ∀ row ∈ strToRegMap, row.1 = reg → bit < row.2.startBit + row.2.bits := by
  unfold checkForcedRange
  rw [forM_ok_iff]
  apply forall₂_congr
  intro row _
  rw [userDieIf_ok]
  by_cases same : reg = row.1
  · simp [same]
  · simp [same,Ne.symm same]

/-- A number that gets past the start is not negative, and below the end of a forced register. -/
theorem accepted_bit (line : CommandLine) (text : String) (value : Int) (given : line.forceInjectToBit = some text)
    (accepted : sanityChecks line = .ok ()) (read : strtolCheck text = some value) :
    ∃ n : Nat, value = n ∧ ∀ reg, line.forceInjectToReg = some reg → checkForcedRange reg n = .ok () := by
  obtain ⟨_,_,rest⟩ := except_bind_ok _ _ _ accepted
  obtain ⟨_,_,checked⟩ := except_bind_ok _ _ _ rest
  rw [given] at checked
  dsimp only at checked
  unfold checkForcedBit at checked
  split at checked
  · next help =>
    have unread : strtolCheck "help" = none := by decide
    rw [help,unread] at read
    cases read
  · split at checked
    · cases checked
    · next bit filtered =>
      obtain ⟨found,natural⟩ := Option.filter_eq_some_iff.mp filtered
      obtain rfl := Option.some.inj (found.symm.trans read)
      obtain ⟨n,rfl⟩ := Int.eq_ofNat_of_zero_le (of_decide_eq_true natural)
      refine ⟨n,rfl,fun reg forced => ?_⟩
      rw [forced] at checked
      exact checked

theorem exec_forced (T : Tracee σ) (cs : Capstone) (opts : Options) (ip : BitVec 64) (reg : String)
    (regs : Collected) (s s' : σ) (forced : opts.forceInjectToReg = some reg)
    (collected : exec (getInstrRegisters T cs opts ip) s = (.ok regs,s')) :
    exec (getSelectedRegAndBit T cs opts ip) s =
      match strToRegMap.lookup reg with
      | some data => exec (selectedBit T opts ⟨reg,data.startBit,data.bits,false⟩) s'
      | none => (.error (.userDie ("Unknown register: " ++ reg ++ ".")),s') := by
  rw [getSelectedRegAndBit,exec_bind_of _ _ _ _ _ collected,exec_bind,exec_lift,candidates,forced]
  dsimp only
  unfold getRegDataForStrSafe
  cases strToRegMap.lookup reg with
  | none => rfl
  | some data =>
    have index (count : Nat) : exec (selectedIndex T opts count) s' = (.ok 0,s') := by
      rw [selectedIndex,forced]
      rfl
    exact exec_bind_of _ _ _ _ _ (index 1)

def SelectsForced (T : Tracee σ) (cs : Capstone) (opts : Options) (ip : BitVec 64) (s : σ) (reg text : String) : Prop :=
  ∃ (selected : RegDescr) (bit : Nat) (s' : σ), selected.name = reg ∧ strtolCheck text = some (bit : Int) ∧
    exec (getSelectedRegAndBit T cs opts ip) s = (.ok (selected,bit,true),s')

theorem selectsForced_above (T : Tracee σ) (cs : Capstone) (opts : Options) (ip : BitVec 64) (reg text : String)
    (regs : Collected) (s s' : σ) (forced : opts.forceInjectToReg = some reg) (given : opts.forceInjectToBit = some text)
    (collected : exec (getInstrRegisters T cs opts ip) s = (.ok regs,s')) (selects : SelectsForced T cs opts ip s reg text) :
    ∃ data value, strToRegMap.lookup reg = some data ∧ strtolCheck text = some value ∧ (data.startBit : Int) ≤ value := by
  obtain ⟨selected,n,last,_,read,ran⟩ := selects
  rw [exec_forced T cs opts ip reg regs s s' forced collected] at ran
  split at ran
  · next data row =>
    rw [exec_forcedBit T opts _ text s' given,read] at ran
    simp only [Prod.mk.injEq,Except.ok.injEq,decide_eq_true_eq] at ran
    obtain ⟨⟨_,same,above,_⟩,_⟩ := ran
    rw [same] at above
    exact ⟨data,n,row,read,by exact_mod_cast above⟩
  · cases ran

theorem selectsForced_of (T : Tracee σ) (cs : Capstone) (opts : Options) (ip : BitVec 64) (reg text : String)
    (regs : Collected) (s s' : σ) (forced : opts.forceInjectToReg = some reg) (given : opts.forceInjectToBit = some text)
    (collected : exec (getInstrRegisters T cs opts ip) s = (.ok regs,s')) (data : RegData) (n : Nat)
    (row : strToRegMap.lookup reg = some data) (read : strtolCheck text = some (n : Int)) (above : data.startBit ≤ n)
    (range : checkForcedRange reg n = .ok ()) : SelectsForced T cs opts ip s reg text := by
  have listed := lookup_listed reg data row
  have below := (checkForcedRange_ok reg n).mp range _ listed rfl
  have ends := (table_rows _ listed).2
  dsimp only at below ends
  have small : toUnsigned n = n := toUnsigned_small n (by omega)
  have inside : InRange ⟨reg,data.startBit,data.bits,false⟩ n := ⟨above,by dsimp only; omega⟩
  refine ⟨⟨reg,data.startBit,data.bits,false⟩,n,s',rfl,read,?_⟩
  rw [exec_forced T cs opts ip reg regs s s' forced collected,row]
  dsimp only
  rw [exec_forcedBit T opts _ text s' given,read]
  simp only [small,decide_eq_true inside]

/-- Of the pairs that get past the start those are selected whose register is in the table and
whose bit is not below its first one. -/
theorem selectsForced_iff (T : Tracee σ) (cs : Capstone) (line : CommandLine) (ip : BitVec 64) (reg text : String)
    (regs : Collected) (s s' : σ) (forced : line.forceInjectToReg = some reg)
    (given : line.forceInjectToBit = some text) (accepted : sanityChecks line = .ok ())
    (collected : exec (getInstrRegisters T cs line.options ip) s = (.ok regs,s')) :
    SelectsForced T cs line.options ip s reg text ↔
      ∃ data value, strToRegMap.lookup reg = some data ∧ strtolCheck text = some value ∧ (data.startBit : Int) ≤ value := by
  constructor
  · exact selectsForced_above T cs line.options ip reg text regs s s' forced given collected
  · rintro ⟨data,value,row,read,above⟩
    obtain ⟨n,rfl,range⟩ := accepted_bit line text value given accepted read
    exact selectsForced_of T cs line.options ip reg text regs s s' forced given collected data n row read
      (by exact_mod_cast above) (range reg forced)

def forcing (reg text : String) : CommandLine := {forceInjectToReg := some reg,forceInjectToBit := some text}

/-- The message for bit 16 says that the valid range is 8-15. -/
theorem ah0_refused : sanityChecks (forcing "ah" "0") = .ok () ∧
    (∃ regs m, exec (getInstrRegisters (tracee acceptingEnv) (decodesTo mul) (forcing "ah" "0").options 0) mapped =
      (.ok regs,m)) ∧
    ¬ SelectsForced (tracee acceptingEnv) (decodesTo mul) (forcing "ah" "0").options 0 mapped "ah" "0" := by
  obtain ⟨m,returned⟩ := mapped_collects (forcing "ah" "0").options mul (by decide) (by decide)
  refine ⟨by decide +kernel,⟨_,m,returned⟩,fun selects => ?_⟩
  obtain ⟨data,value,row,read,above⟩ :=
    selectsForced_above _ _ _ _ "ah" "0" _ _ _ rfl rfl returned selects
  have first : strToRegMap.lookup "ah" = some ⟨some (.gpregs 80),8,8⟩ := by decide
  have zero : strtolCheck "0" = some 0 := by decide
  rw [first] at row
  rw [zero] at read
  cases row
  cases read
  revert above
  decide

theorem ah8_selected :
    SelectsForced (tracee acceptingEnv) (decodesTo mul) (forcing "ah" "8").options 0 mapped "ah" "8" := by
  obtain ⟨m,returned⟩ := mapped_collects (forcing "ah" "8").options mul (by decide) (by decide)
  exact (selectsForced_iff (tracee acceptingEnv) (decodesTo mul) (forcing "ah" "8") 0 "ah" "8" _ mapped m rfl rfl
    (by decide +kernel) returned).mpr ⟨⟨some (.gpregs 80),8,8⟩,8,by decide,by decide,by decide⟩

theorem strtolCheck_writes (text : String) (n : Int) (writes : Writes text.toList n) :
    strtolCheck text = some (max longMin (min longMax n)) := by
  have occupied : text.toList ≠ [] := by
    obtain ⟨_,_,digits,same,_,some,_⟩ := writes
    rw [same]
    simp [some]
  unfold strtolCheck
  rw [strtol_writes _ _ writes]
  exact if_neg (by simp [occupied])

theorem writes_of_check (text : String) (value : Int) (read : strtolCheck text = some value) :
    ∃ n, Writes text.toList n ∧ value = max longMin (min longMax n) := by
  obtain ⟨n,writes⟩ : ∃ n, Writes text.toList n := by
    unfold strtolCheck at read
    dsimp only at read
    split at read
    · cases read
    · next whole =>
      obtain ⟨occupied,ended⟩ := not_or.mp whole
      exact writes_of_strtol _ occupied (Classical.not_not.mp ended)
  rw [strtolCheck_writes text n writes] at read
  exact ⟨n,writes,(Option.some.inj read).symm⟩

theorem selected_read (T : Tracee σ) (cs : Capstone) (opts : Options) (ip : BitVec 64) (reg : RegDescr) (bit : Nat)
    (text : String) (s s' : σ) (given : opts.forceInjectToBit = some text)
    (ok : exec (getSelectedRegAndBit T cs opts ip) s = (.ok (reg,bit,true),s')) :
    ∃ value, strtolCheck text = some value ∧ bit = toUnsigned value := by
  obtain ⟨regs,_,_,ok⟩ := bind_ok _ _ _ _ _ ok
  obtain ⟨vec,_,_,ok⟩ := bind_ok _ _ _ _ _ ok
  split at ok
  · have same := (pure_ok _ _ _ _ ok).1
    simp at same
  · obtain ⟨index,_,_,ok⟩ := bind_ok _ _ _ _ _ ok
    rw [exec_forcedBit T opts _ text _ given] at ok
    split at ok
    · next value read =>
      simp only [Prod.mk.injEq,Except.ok.injEq] at ok
      exact ⟨value,read,ok.1.2.1.symm⟩
    · cases ok

def BitAsWritten (text : String) : Prop :=
  ∀ (env : Env) (cs : Capstone) (line : CommandLine) (ip : BitVec 64) (m m' : Machine) (reg : RegDescr) (bit : Nat)
    (success : Bool), line.forceInjectToReg = none → line.forceInjectToBit = some text → sanityChecks line = .ok () →
    exec (getSelectedRegAndBit (tracee env) cs line.options ip) m = (.ok (reg,bit,success),m') →
    (success = true → ∃ n, Writes text.toList n ∧ (bit : Int) = n ∧ InRange reg bit) ∧
      ∀ n, Writes text.toList n → ¬ ((reg.startBit : Int) ≤ n ∧ n < reg.startBit + reg.bits) → success = false

def move : CsInsn := ⟨[],[],[],[.reg 1 csAcWrite]⟩

def wide : Capstone := ⟨fun _ => some move,fun _ => "zmm0"⟩

def atRandom (text : String) : CommandLine := {forceInjectToBit := some text}

theorem atRandom_accepted (text : String) (n : Nat) (read : strtolCheck text = some (n : Int)) :
    sanityChecks (atRandom text) = .ok () := by
  have letters : checkInjectTo "rwe" = .ok () := by decide
  have natural : (0 : Int) ≤ n := Int.natCast_nonneg n
  have bit : checkForcedBit (atRandom text) text = .ok () := by
    unfold checkForcedBit
    split
    · rfl
    · rw [read,Option.filter_some,if_pos (decide_eq_true natural)]
      rfl
  unfold sanityChecks
  dsimp only [atRandom,CommandLine.options,Option.getD_none]
  rw [letters]
  exact bit

theorem wide_selects (text : String) (value : Int) (read : strtolCheck text = some value) :
    ∃ m, exec (getSelectedRegAndBit (tracee acceptingEnv) wide (atRandom text).options 0) mapped =
      (.ok (descr true "zmm0",toUnsigned value,decide (InRange (descr true "zmm0") (toUnsigned value))),m) := by
  obtain ⟨middle,copied⟩ := mapped_copied
  have implicit : ImplicitKnown wide "rwe" move := by decide
  have explicit : ExplicitKnown wide "rwe" move := by decide
  have letter : (isIn "rwe" "r" || isIn "rwe" "w") = true := by decide
  have routed : routeOf "rwe" (gathered wide "rwe" move) = [descr true "zmm0"] := by decide
  have collected := getInstrRegisters_returns (tracee acceptingEnv) wide (atRandom text).options 0 move _ mapped middle
    copied rfl implicit explicit
  have run := exec_unforced (tracee acceptingEnv) wide (atRandom text).options 0 _ mapped middle rfl letter collected
  have same : (atRandom text).options.injectTo = "rwe" := rfl
  have drawn := exec_randSafe acceptingEnv middle 1 (by decide)
  rw [Nat.mod_one] at drawn
  rw [same,routed,if_neg (List.cons_ne_nil _ _),List.length_singleton,exec_bind_of _ _ _ _ _ drawn,
    exec_forcedBit _ _ _ text _ rfl,List.getD_cons_zero,read] at run
  exact ⟨_,run⟩

/-- A number that does not fit is cut to its lower 32 bits, which can be a bit of zmm0. -/
theorem cut_selected (text : String) (n : Int) (writes : Writes text.toList n) (above : 2^32 ≤ n) (below : n < 2^63)
    (low : n % 2^32 < 512) : sanityChecks (atRandom text) = .ok () ∧
    ∃ m, exec (getSelectedRegAndBit (tracee acceptingEnv) wide (atRandom text).options 0) mapped =
      (.ok (descr true "zmm0",(n % 2^32).toNat,true),m) := by
  have unclamped : max longMin (min longMax n) = (n.toNat : Int) := by
    unfold longMin longMax
    omega
  have read := (strtolCheck_writes text n writes).trans (congrArg some unclamped)
  have kept : toUnsigned n.toNat = (n % 2^32).toNat := by
    unfold toUnsigned
    omega
  have inside : InRange (descr true "zmm0") (n % 2^32).toNat := by
    have start : (descr true "zmm0").startBit = 0 := by decide
    have width : (descr true "zmm0").bits = 512 := by decide
    unfold InRange
    omega
  obtain ⟨m,selected⟩ := wide_selects text n.toNat read
  rw [kept,decide_eq_true inside] at selected
  exact ⟨atRandom_accepted text n.toNat read,m,selected⟩

theorem written_bit (text : String) (n : Int) (writes : Writes text.toList n)
    (fits : n < 2^32 ∨ 2^63 ≤ n ∨ 512 ≤ n % 2^32) (T : Tracee σ) (cs : Capstone) (line : CommandLine) (ip : BitVec 64)
    (reg : RegDescr) (bit : Nat) (s s' : σ) (given : line.forceInjectToBit = some text)
    (accepted : sanityChecks line = .ok ())
    (ok : exec (getSelectedRegAndBit T cs line.options ip) s = (.ok (reg,bit,true),s')) : (bit : Int) = n := by
  obtain ⟨described,range⟩ := getSelectedRegAndBit_selected T cs line.options ip reg bit s s' ok
  have ends := (described_row reg described).2
  obtain ⟨value,read,rfl⟩ := selected_read T cs line.options ip reg bit text s s' given ok
  have clamped := strtolCheck_writes text n writes
  rw [read,Option.some.injEq] at clamped
  subst clamped
  obtain ⟨natural,same,_⟩ := accepted_bit line text _ given accepted read
  have positive : 0 ≤ n := by
    unfold longMin longMax at same
    omega
  exact (toUnsigned_written n positive (by omega)).mpr fits

/-- The bit is as written unless the number keeps less than 512 of itself when it is cut to 32
bits. -/
theorem bitAsWritten_iff (text : String) :
    BitAsWritten text ↔ ∀ n, Writes text.toList n → n < 2^32 ∨ 2^63 ≤ n ∨ 512 ≤ n % 2^32 := by
  constructor
  · intro asWritten n writes
    by_contra cut
    simp only [not_or,not_lt,not_le] at cut
    obtain ⟨above,below,low⟩ := cut
    obtain ⟨accepted,m,selected⟩ := cut_selected text n writes above below low
    have outside : ¬ (((descr true "zmm0").startBit : Int) ≤ n ∧
        n < (descr true "zmm0").startBit + (descr true "zmm0").bits) := by
      have start : (descr true "zmm0").startBit = 0 := by decide
      have width : (descr true "zmm0").bits = 512 := by decide
      omega
    have failed := (asWritten _ _ _ _ _ _ _ _ _ rfl rfl accepted selected).2 n writes outside
    cases failed
  · intro all env cs line ip m m' reg bit success _ given accepted ok
    constructor
    · rintro rfl
      obtain ⟨value,read,_⟩ := selected_read _ cs line.options ip reg bit text m m' given ok
      obtain ⟨n,writes,_⟩ := writes_of_check text value read
      have same := written_bit text n writes (all n writes) _ cs line ip reg bit m m' given accepted ok
      exact ⟨n,writes,same,(getSelectedRegAndBit_selected _ cs line.options ip reg bit m m' ok).2⟩
    · intro n writes outside
      cases success with
      | false => rfl
      | true =>
        have same := written_bit text n writes (all n writes) _ cs line ip reg bit m m' given accepted ok
        obtain ⟨above,below⟩ := (getSelectedRegAndBit_selected _ cs line.options ip reg bit m m' ok).2
        exact absurd (by omega) outside

theorem bit0_selected : sanityChecks (atRandom "4294967296") = .ok () ∧
    (∃ m, exec (getSelectedRegAndBit (tracee acceptingEnv) wide (atRandom "4294967296").options 0) mapped =
      (.ok (descr true "zmm0",0,true),m)) ∧
    ¬ BitAsWritten "4294967296" := by
  have digits : "4294967296".toList.all Char.isDigit = true := by decide
  have writes : Writes "4294967296".toList 4294967296 :=
    ⟨[],.without,"4294967296".toList,rfl,List.forall_mem_nil _,by decide,List.all_eq_true.mp digits,by decide⟩
  obtain ⟨accepted,m,selected⟩ := cut_selected "4294967296" 4294967296 writes (by decide) (by decide) (by decide)
  refine ⟨accepted,⟨m,selected⟩,fun asWritten => ?_⟩
  have failed := (asWritten _ _ _ _ _ _ _ _ _ rfl rfl accepted selected).2 _ writes (by decide)
  cases failed

end Zofi.ForcedBit
