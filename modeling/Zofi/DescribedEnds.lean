import Zofi.MapsText
import Zofi.Model.ExitState
import Zofi.Verdict

/-! The ends that -set-orig-exit-state can describe, and the ends that a traced run is seen to
have. -/
namespace Zofi.DescribedEnds
open Sys Model.Utils Model.WaitStatus Model.AddrSpace Model.Outcomes Model.Wait Model.Inject Model.TestRun
open Model.ExitState Verdict Semantics.Ptrace

variable {μ : Type}

inductive FinalState
  | exit (code : Fin 256)
  | death (signal : Signal)

namespace FinalState

/-- The tracer sees a death as the stop by its signal. -/
def status : FinalState → Nat
  | exit code => (Ending.exited code).status
  | death signal => stoppedStatus signal

def observed : FinalState → ExitState
  | exit code => ⟨.exited,code⟩
  | death signal => ⟨.stopped,signal⟩

/-- The documented text: exited:<EXIT_CODE> or signaled:<SIGNAL>. -/
def text : FinalState → List Char
  | exit code => "exited".toList ++ ':' :: Nat.toDigits 10 code
  | death signal => "signaled".toList ++ ':' :: Nat.toDigits 10 signal

def imported : FinalState → ExitState
  | exit code => ⟨.exited,code⟩
  | death signal => ⟨.signaled,signal⟩

theorem observed_eq (final : FinalState) : getWaitPidExitState final.status = .ok final.observed := by
  cases final with
  | exit code => exact exited_status code
  | death signal => exact stopped_status signal

end FinalState

/-- A name of an existing file that fits the buffer and the format. -/
structure Named (fileExists : String → Bool) (name : List Char) : Prop where
  occupied : name ≠ []
  plain : ',' ∉ name
  fits : name.length < fnameSz
  exists_ : fileExists (String.ofList name) = true

def argument (stdoutFile stderrFile : List Char) (final : FinalState) : String :=
  String.ofList (stdoutFile ++ ',' :: (stderrFile ++ ',' :: final.text))

theorem scanBuffer_run (size : Nat) (stop : Char) (run rest : List Char) (occupied : run ≠ []) (plain : stop ∉ run)
    (fits : run.length < size) : scanBuffer size stop (run ++ stop :: rest) = .ok (some (run,stop :: rest)) := by
  have all : ∀ c ∈ run, decide (c ≠ stop) = true := by
    intro c member
    exact decide_eq_true fun same => plain (same ▸ member)
  have head : (run ++ stop :: rest).takeWhile (· ≠ stop) = run :=
    Numerals.takeWhile_run _ run (stop :: rest) all fun c first => by cases first; simp
  have shorter : ¬ run.length = size := by omega
  rw [scanBuffer,head,List.take_of_length_le fits.le]
  simp [occupied,shorter]

theorem scanChar_head (c : Char) (rest : List Char) : scanChar c (c :: rest) = some rest := if_pos rfl

theorem scanInt_toDigits (n : Nat) (small : n < 2^31) : scanInt (Nat.toDigits 10 n) = .ok (some (n : Int)) := by
  have fits : (n : Int) ≤ longMax := by
    unfold longMax
    omega
  rw [scanInt,MapsText.scanLong_toDigits n fits]
  apply if_pos
  omega

theorem scanArgument_parts (stdoutFile stderrFile typeStr digits : List Char) (val : Int)
    (stdout : stdoutFile ≠ [] ∧ ',' ∉ stdoutFile ∧ stdoutFile.length < fnameSz)
    (stderr : stderrFile ≠ [] ∧ ',' ∉ stderrFile ∧ stderrFile.length < fnameSz)
    (type : typeStr ≠ [] ∧ ':' ∉ typeStr ∧ typeStr.length < maxTySz) (read : scanInt digits = .ok (some val)) :
    (scanArgument (stdoutFile ++ ',' :: (stderrFile ++ ',' :: (typeStr ++ ':' :: digits)))).run =
      .ok (some (stdoutFile,stderrFile,typeStr,val)) := by
  have one := scanBuffer_run fnameSz ',' stdoutFile (stderrFile ++ ',' :: (typeStr ++ ':' :: digits)) stdout.1 stdout.2.1
    stdout.2.2
  have two := scanBuffer_run fnameSz ',' stderrFile (typeStr ++ ':' :: digits) stderr.1 stderr.2.1 stderr.2.2
  have three := scanBuffer_run maxTySz ':' typeStr digits type.1 type.2.1 type.2.2
  unfold scanArgument
  simp only [OptionT.run,OptionT.mk,bind,OptionT.bind,Except.bind,pure,OptionT.pure,Except.pure,one,two,three,
    scanChar_head,read]

def withText (orig : ExecutionExitState) (stdoutFile stderrFile : List Char) (final : FinalState) : ExecutionExitState :=
  {orig with state := final.imported,stdoutFile := String.ofList stdoutFile,stderrFile := String.ofList stderrFile}

theorem scan_text (stdoutFile stderrFile : List Char) (final : FinalState) (fileExists : String → Bool)
    (stdout : Named fileExists stdoutFile) (stderr : Named fileExists stderrFile) :
    ∃ typeStr val, (scanArgument (argument stdoutFile stderrFile final).toList).run =
        .ok (some (stdoutFile,stderrFile,typeStr,val)) ∧
      importState (String.ofList typeStr) val = .ok final.imported := by
  have read (typeStr digits : List Char) (val : Int) := scanArgument_parts stdoutFile stderrFile typeStr digits val
    ⟨stdout.occupied,stdout.plain,stdout.fits⟩ ⟨stderr.occupied,stderr.plain,stderr.fits⟩
  have unsigned (n : Nat) (small : n < 2^31) : toUnsigned (n : Int) = n := by
    unfold toUnsigned
    omega
  have typed (n : Nat) : importState "exited" n = .ok ⟨.exited,toUnsigned n⟩ ∧
      importState "signaled" n = .ok ⟨.signaled,toUnsigned n⟩ := ⟨rfl,rfl⟩
  rw [argument,String.toList_ofList]
  cases final with
  | exit code =>
    have small : code.val < 2^31 := by omega
    refine ⟨"exited".toList,code.val,read _ _ _ (by decide) (scanInt_toDigits code small),?_⟩
    rw [String.ofList_toList,(typed code).1,unsigned code small]
    rfl
  | death signal =>
    have small : signal.val < 2^31 := by
      have bound := signal.property.2
      omega
    refine ⟨"signaled".toList,signal.val,read _ _ _ (by decide) (scanInt_toDigits signal.val small),?_⟩
    rw [String.ofList_toList,(typed signal.val).2,unsigned signal.val small]
    rfl

theorem import_text_iff (errno : Int) (fileExists : String → Bool) (orig imported : ExecutionExitState)
    (stdoutFile stderrFile : List Char) (final : FinalState) (stdout : Named fileExists stdoutFile)
    (stderr : Named fileExists stderrFile) :
    importArgument errno fileExists orig (argument stdoutFile stderrFile final) = .ok imported ↔
      errno = 0 ∧ imported = withText orig stdoutFile stderrFile final := by
  obtain ⟨typeStr,val,scanned,typed⟩ := scan_text stdoutFile stderrFile final fileExists stdout stderr
  unfold importArgument
  rw [scanned]
  by_cases clear : errno = 0
  · have files : checkFile fileExists (String.ofList stdoutFile) = .ok () ∧
        checkFile fileExists (String.ofList stderrFile) = .ok () := ⟨if_pos stdout.exists_,if_pos stderr.exists_⟩
    simp [clear,files,typed,Option.filter,bind,Except.bind,pure,Except.pure,withText,eq_comm]
  · simp [clear,Option.filter,bind,Except.bind]

def SameOutputs (settings : Settings) (disk : Disk) (orig test : ExecutionExitState) : Prop :=
  match settings.diffCmd with
  | none => ∃ stdout stderr, Readable disk orig test stdout stderr stdout stderr
  | some diffCmd => diffCmd orig test = .ok true

theorem verdict_masked_iff (settings : Settings) (state : ExitState) (same : Bool) :
    FtStatus.masked = verdict settings state same ↔ Compares settings state ∧ same = true := by
  unfold verdict
  by_cases on : settings.noRedirect = true
  · rw [if_pos on]
    refine iff_of_false (by decide) fun both => ?_
    rw [both.1.1] at on
    cases on
  · rw [if_neg on]
    by_cases detects : Detects settings state
    · rw [if_pos detects]
      exact iff_of_false (by decide) fun both => both.1.2.1 detects
    · rw [if_neg detects]
      by_cases alarm : TimesOut state
      · rw [if_pos alarm]
        exact iff_of_false (by decide) fun both => both.1.2.2 alarm
      · rw [if_neg alarm,and_iff_right ⟨Bool.eq_false_iff.mpr on,detects,alarm⟩]
        cases same with
        | true => simp
        | false =>
          rw [if_neg Bool.false_ne_true]
          by_cases exited : state.type = .exited
          · rw [if_pos exited]
            decide
          · rw [if_neg exited]
            decide

theorem masked_iff (os : Os μ) (settings : Settings) (disk : Disk) (orig exState : ExecutionExitState)
    (fuel pid waitStatus : Nat) (state : ExitState) (w w₁ : World μ)
    (waited : exec (waitpidSkipThreadState os.toWaitCalls fuel) w = (.ok (pid,waitStatus),w₁))
    (decoded : getWaitPidExitState waitStatus = .ok state) (ended : state.type = .exited ∨ state.type = .stopped) :
    (∃ r w', exec (waitChildAndGetStatus os settings disk orig fuel {exState}) w = (.ok (.masked,r),w')) ↔
      Compares settings state ∧ checkOutput settings disk orig {exState with state} = .ok true := by
  rw [waitChildAndGetStatus_exec os settings disk orig exState fuel pid waitStatus state w w₁ waited decoded]
  have reached (w' : World μ) := classify_iff os settings disk orig fuel (ready exState settings state) .masked w₁ w'
    (.inr ended) rfl
  constructor
  · rintro ⟨r,w',ran⟩
    obtain ⟨status,middle,classified,returned⟩ := bind_ok _ _ _ _ _ ran
    obtain ⟨same,_⟩ := pure_ok _ _ _ _ returned
    obtain rfl : FtStatus.masked = status := congrArg Prod.fst same
    obtain ⟨equal,reads,_,compared,_⟩ := (reached middle).mp classified
    obtain ⟨compares,rfl⟩ := (verdict_masked_iff _ _ _).mp reads
    exact ⟨compares,compared compares⟩
  · rintro ⟨compares,equal⟩
    have listened : state.type = .signaled → settings.noRedirect = true := by
      intro signaled
      simp [signaled] at ended
    have spared : ¬ KillsFirst settings state := by
      rintro (⟨on,_⟩ | ⟨_,alarm⟩)
      · rw [compares.1] at on
        cases on
      · exact compares.2.2 alarm
    have classified := (reached w₁).mpr ⟨true,(verdict_masked_iff _ _ _).mpr ⟨compares,rfl⟩,listened,fun _ => equal,
      by rw [ready,if_neg spared]⟩
    refine ⟨ready exState settings state,w₁,?_⟩
    rw [exec_bind_of _ _ _ _ _ classified]
    rfl

theorem checkOutput_same (settings : Settings) (disk : Disk) (orig test : ExecutionExitState)
    (origSet : orig.isSet = true) (testSet : test.state.isSet = true) (states : test.state = orig.state)
    (same : SameOutputs settings disk orig test) : checkOutput settings disk orig test = .ok true := by
  unfold SameOutputs at same
  cases given : settings.diffCmd with
  | none =>
    rw [given] at same
    obtain ⟨stdout,stderr,readable⟩ := same
    rw [checkOutput_default settings disk orig test stdout stderr stdout stderr given origSet testSet readable]
    simp [states]
  | some diffCmd =>
    rw [given] at same
    simp [checkOutput,origSet,testSet,given,same]

theorem checkOutput_set (settings : Settings) (disk : Disk) (orig test : ExecutionExitState) (result : Bool)
    (compared : checkOutput settings disk orig test = .ok result) : orig.isSet = true := by
  unfold checkOutput at compared
  split at compared
  · cases compared
  · next set => simpa using set

def Describes (os : Os μ) (settings : Settings) (disk : Disk) (orig exState : ExecutionExitState) (fuel : Nat)
    (errno : Int) (fileExists : String → Bool) (stdoutFile stderrFile : List Char) (final : FinalState)
    (w : World μ) : Prop :=
  ∃ imported, importArgument errno fileExists orig (argument stdoutFile stderrFile final) = .ok imported ∧
    getWaitPidExitState final.status = .ok imported.state ∧
    ∃ r w', exec (waitChildAndGetStatus os settings disk imported fuel {exState}) w = (.ok (.masked,r),w')

/-- Only an exit is described, and only by a text that is read with errno clear, over the
descriptors of an original run. -/
theorem describes_iff (os : Os μ) (settings : Settings) (disk : Disk) (orig exState : ExecutionExitState) (fuel pid : Nat)
    (errno : Int) (fileExists : String → Bool) (stdoutFile stderrFile : List Char) (final : FinalState) (w w₁ : World μ)
    (stdout : Named fileExists stdoutFile) (stderr : Named fileExists stderrFile)
    (waited : exec (waitpidSkipThreadState os.toWaitCalls fuel) w = (.ok (pid,final.status),w₁))
    (same : SameOutputs settings disk (withText orig stdoutFile stderrFile final) {exState with state := final.observed}) :
    Describes os settings disk orig exState fuel errno fileExists stdoutFile stderrFile final w ↔
      (∃ code, final = .exit code ∧ ¬ Detects settings ⟨.exited,code⟩) ∧ errno = 0 ∧
        (orig.stdoutFd ≠ -1 ∧ orig.stderrFd ≠ -1) ∧ settings.noRedirect = false := by
  have ended : final.observed.type = .exited ∨ final.observed.type = .stopped := by
    cases final with
    | exit code => exact .inl rfl
    | death signal => exact .inr rfl
  have masked (imported : ExecutionExitState) := masked_iff os settings disk imported exState fuel pid final.status
    final.observed w w₁ waited final.observed_eq ended
  constructor
  · rintro ⟨imported,accepted,equal,ran⟩
    obtain ⟨clear,rfl⟩ := (import_text_iff errno fileExists orig imported stdoutFile stderrFile final stdout stderr).mp
      accepted
    obtain ⟨compares,compared⟩ := (masked _).mp ran
    have set := checkOutput_set settings disk _ _ true compared
    have seen : final.observed = final.imported := Except.ok.inj (final.observed_eq.symm.trans equal)
    refine ⟨?_,clear,by simpa [ExecutionExitState.isSet,withText] using (Bool.and_eq_true_iff.mp set).1,compares.1⟩
    cases final with
    | exit code => exact ⟨code,rfl,compares.2.1⟩
    | death signal => simp [FinalState.observed,FinalState.imported] at seen
  · rintro ⟨⟨code,rfl,undetected⟩,clear,⟨stdoutFd,stderrFd⟩,redirected⟩
    refine ⟨withText orig stdoutFile stderrFile (.exit code),?_,(FinalState.exit code).observed_eq,?_⟩
    · exact (import_text_iff errno fileExists orig _ stdoutFile stderrFile _ stdout stderr).mpr ⟨clear,rfl⟩
    · have origSet : (withText orig stdoutFile stderrFile (.exit code)).isSet = true := by
        simp [ExecutionExitState.isSet,withText,stdoutFd,stderrFd,FinalState.imported,ExitState.isSet]
      have compares : Compares settings (FinalState.exit code).observed :=
        ⟨redirected,undetected,by simp [TimesOut,FinalState.observed]⟩
      exact (masked _).mpr ⟨compares,checkOutput_same settings disk _ _ origSet rfl rfl same⟩

theorem quiet_same (orig test : ExecutionExitState) : SameOutputs {} quiet orig test := ⟨[],[],rfl,rfl,rfl,rfl⟩

theorem out_named : Named (fun _ => true) "out".toList := ⟨by decide,by decide,by decide,rfl⟩

/-- The child is stopped by a SIGSEGV that it will die of. -/
def crashed : List Ev := [.move (.stop 7 Signal.segv),.report 7]

theorem segv_undescribed :
    (∃ w₁, exec (waitpidSkipThreadState (os unrestricted noReplies).toWaitCalls 1) (afterRun 7 0 crashed) =
      (.ok (7,(FinalState.death Signal.segv).status),w₁)) ∧
    SameOutputs {} quiet (withText original "out".toList "out".toList (.death Signal.segv)) original ∧
    ¬ Describes (os unrestricted noReplies) {} quiet original original 1 0 (fun _ => true) "out".toList "out".toList
      (.death Signal.segv) (afterRun 7 0 crashed) := by
  have reported : (exec (waitpidSkipThreadState (os unrestricted noReplies).toWaitCalls 1)
      (afterRun 7 0 crashed)).1 = .ok (7,(FinalState.death Signal.segv).status) := by decide +kernel
  refine ⟨⟨_,Prod.ext reported rfl⟩,quiet_same _ _,?_⟩
  rintro ⟨imported,accepted,equal,_⟩
  obtain ⟨_,rfl⟩ := (import_text_iff _ _ _ _ _ _ _ out_named out_named).mp accepted
  have seen := Except.ok.inj ((FinalState.observed_eq _).symm.trans equal)
  simp [FinalState.observed,FinalState.imported,withText] at seen

theorem returned_described : Describes (os unrestricted noReplies) {} quiet original original 1 0 (fun _ => true)
    "out".toList "out".toList (.exit 0) (afterRun 7 0 returned) := by
  have reported : (exec (waitpidSkipThreadState (os unrestricted noReplies).toWaitCalls 1) (afterRun 7 0 returned)).1 =
      .ok (7,0) := by decide +kernel
  obtain ⟨w₁,waited⟩ := outcome_ok _ _ _ reported
  exact (describes_iff _ {} quiet original original 1 7 0 _ _ _ (.exit 0) _ w₁ out_named out_named waited
    (quiet_same _ _)).mpr ⟨⟨0,rfl,by decide⟩,rfl,by decide,rfl⟩

end Zofi.DescribedEnds
