import Zofi.Campaign
import Zofi.Cleanup
import Zofi.Model.TestRun
import Zofi.Outputs

/-! The verdict on a test run, and whether its job gets to report one. What the kernel does
with the child behind the last wait is an assumption on the calls. -/
namespace Zofi.Verdict
open Sys Model.Utils Model.WaitStatus Model.Outcomes Model.Wait Model.Inject Model.Threads Model.TestRun Campaign
open Semantics.Ptrace

variable {μ : Type}

/-- Polling the child `n` times more finds it unchanged, and then nothing is left to wait for. -/
inductive Drains (os : Os μ) (pid : Nat) : Nat → World μ → World μ → Prop
  | last {w w' : World μ} (answer : Option Bool) (polled : exec (os.waitpidNoHang pid) w = (.ok answer,w'))
      (over_ : answer ≠ some false) : Drains os pid 0 w w'
  | more {n : Nat} {w w₁ w₂ w' : World μ} (data : Nat × Nat)
      (polled : exec (os.waitpidNoHang pid) w = (.ok (some false),w₁))
      (waited : exec (os.waitpid pid) w₁ = (.ok (some data),w₂)) (rest : Drains os pid n w₂ w') :
      Drains os pid (n + 1) w w'

theorem cleanup_iff (os : Os μ) (pid fuel : Nat) (w w' : World μ) :
    exec (cleanupWaitpidState os pid fuel) w = (.ok (),w') ↔ ∃ n < fuel, Drains os pid n w w' := by
  constructor
  · intro ran
    induction fuel generalizing w with
    | zero => simp [cleanupWaitpidState] at ran
    | succ fuel ih =>
      rw [cleanupWaitpidState] at ran
      obtain ⟨answer,w₁,polled,ran⟩ := bind_ok _ _ _ _ _ ran
      split at ran
      · obtain ⟨data,w₂,safe,ran⟩ := bind_ok _ _ _ _ _ ran
        obtain ⟨found,w₂',waited,safe⟩ := bind_ok _ _ _ _ _ safe
        cases found with
        | none => simp at safe
        | some found =>
          obtain ⟨_,rfl⟩ := pure_ok _ _ _ _ safe
          obtain ⟨n,enough,rest⟩ := ih _ ran
          exact ⟨n + 1,by omega,.more found polled waited rest⟩
      next differs =>
        obtain ⟨_,rfl⟩ := pure_ok _ _ _ _ ran
        exact ⟨0,by omega,.last answer polled differs⟩
  · rintro ⟨n,enough,drains⟩
    induction drains generalizing fuel with
    | last answer polled over_ =>
      obtain ⟨fuel,rfl⟩ : ∃ less, fuel = less + 1 := ⟨fuel - 1,by omega⟩
      rw [cleanupWaitpidState,exec_bind_of _ _ _ _ _ polled]
      split
      · exact absurd rfl over_
      · rfl
    | @more n w w₁ w₂ w' data polled waited rest ih =>
      obtain ⟨fuel,rfl⟩ : ∃ less, fuel = less + 1 := ⟨fuel - 1,by omega⟩
      have safe : exec (waitpidSafe (os.waitpid pid)) w₁ = (.ok data,w₂) := by
        rw [waitpidSafe,exec_bind_of _ _ _ _ _ waited]
        rfl
      rw [cleanupWaitpidState,exec_bind_of _ _ _ _ _ polled]
      dsimp only
      rw [exec_bind_of _ _ _ _ _ safe]
      exact ih fuel (by omega)

/-- PTRACE_KILL of the child is answered with `success`, and its end can be waited for. -/
def Kills (os : Os μ) (success : Bool) (n : Nat) (w w' : World μ) : Prop :=
  ∃ w₁, exec (os.ptraceKill w.runner.childPID) w = (.ok success,w₁) ∧ Drains os w.runner.childPID n w₁ w'

theorem killChild_iff (os : Os μ) (fuel : Nat) (w w' : World μ) :
    exec (killChild os fuel) w = (.ok (),w') ↔ ∃ n < fuel, Kills os true n w w' := by
  rw [killChild,exec_bind_of _ _ _ _ _ (exec_get w),bind_ok_iff]
  simp only [cleanup_iff]
  constructor
  · rintro ⟨_,w₁,safe,n,enough,drains⟩
    obtain ⟨success,w₁',killed,safe⟩ := bind_ok _ _ _ _ _ safe
    cases success with
    | false => simp at safe
    | true =>
      obtain ⟨_,rfl⟩ := pure_ok _ _ _ _ safe
      exact ⟨n,enough,w₁,killed,drains⟩
  · rintro ⟨n,enough,w₁,killed,drains⟩
    refine ⟨(),w₁,?_,n,enough,drains⟩
    rw [ptraceSafe,exec_bind_of _ _ _ _ _ killed]
    rfl

abbrev Detects (settings : Settings) (state : ExitState) : Prop :=
  0 < settings.detectionExitCode ∧ state.type = .exited ∧ state.val = settings.detectionExitCode

abbrev TimesOut (state : ExitState) : Prop := state.type = .stopped ∧ state.val = sigAlrm

abbrev Compares (settings : Settings) (state : ExitState) : Prop :=
  settings.noRedirect = false ∧ ¬ Detects settings state ∧ ¬ TimesOut state

abbrev KillsFirst (settings : Settings) (state : ExitState) : Prop :=
  settings.noRedirect = true ∧ state.type ≠ .exited ∨ settings.noRedirect = false ∧ TimesOut state

def verdict (settings : Settings) (state : ExitState) (same : Bool) : FtStatus :=
  if settings.noRedirect then .skipped
  else if Detects settings state then .detected
  else if TimesOut state then .infExec
  else if same then .masked
  else if state.type = .exited then .corrupted
  else .exception

structure Classified (settings : Settings) (state : ExitState) (same : Prop) (status : FtStatus) : Prop where
  skipped : status = .skipped ↔ settings.noRedirect = true
  detected : settings.noRedirect = false → (status = .detected ↔ Detects settings state)
  infExec : settings.noRedirect = false → ¬ Detects settings state → (status = .infExec ↔ TimesOut state)
  masked : Compares settings state → (status = .masked ↔ same)
  corrupted : Compares settings state → ¬ same → state.type = .exited → status = .corrupted
  exception : Compares settings state → ¬ same → state.type = .stopped → status = .exception
  maskedOnly : status = .masked → same

theorem verdict_classified (settings : Settings) (state : ExitState) (same : Bool)
    (ended : state.type = .exited ∨ state.type = .stopped) :
    Classified settings state (same = true) (verdict settings state same) := by
  unfold verdict
  constructor <;> grind

theorem checked_iff (settings : Settings) (disk : Disk) (orig test : ExecutionExitState)
    (kept other status : FtStatus) (w w' : World μ) :
    exec (do
      let same ← (liftM (checkOutput settings disk orig test) : Prog Halt (World μ) Bool)
      if same then return kept else return other) w = (.ok status,w') ↔
      ∃ same, status = (if same then kept else other) ∧ checkOutput settings disk orig test = .ok same ∧ w' = w := by
  rw [exec_bind,exec_lift]
  cases checkOutput settings disk orig test with
  | error e => simp
  | ok same => cases same <;> simp [eq_comm]

/-- Behind the wait the verdict is reached, unless it is a termination that cannot be skipped, the
outputs cannot be compared, or the child cannot be killed. -/
theorem classify_iff (os : Os μ) (settings : Settings) (disk : Disk) (orig : ExecutionExitState) (fuel : Nat)
    (r : Runner) (status : FtStatus) (w w' : World μ)
    (ended : r.exState.state.type = .signaled ∨ r.exState.state.type = .exited ∨ r.exState.state.type = .stopped)
    (skips : r.skipCheck = settings.noRedirect) :
    exec (classify os settings disk orig fuel r) w = (.ok status,w') ↔
      ∃ same, status = verdict settings r.exState.state same ∧
        (r.exState.state.type = .signaled → settings.noRedirect = true) ∧
        (Compares settings r.exState.state → checkOutput settings disk orig r.exState = .ok same) ∧
        if KillsFirst settings r.exState.state then exec (killChild os fuel) w = (.ok (),w') else w' = w := by
  have checks (kept other : FtStatus) := checked_iff settings disk orig r.exState kept other status w w'
  obtain ⟨⟨⟨type,val⟩,stdoutFd,stderrFd,stdoutFile,stderrFile⟩,skipCheck⟩ := r
  dsimp only at ended skips checks ⊢
  subst skips
  unfold classify
  dsimp only
  by_cases on : settings.noRedirect = true
  · rw [if_pos on]
    by_cases exited : type = .exited
    · rw [if_neg (not_not.mpr exited)]
      simp [exited,verdict,on,eq_comm (a := status),eq_comm (a := w')]
    · rw [if_pos exited,bind_pure_ok_iff]
      simp [exited,verdict,on]
  · have off : settings.noRedirect = false := by simpa using on
    rw [if_neg on]
    rcases ended with rfl | rfl | rfl
    · simp [off]
    · dsimp only
      by_cases detects : 0 < settings.detectionExitCode ∧ (val : Int) = settings.detectionExitCode
      · rw [if_pos detects]
        simp [verdict,off,detects,KillsFirst,Compares,Detects,TimesOut,eq_comm (a := status),eq_comm (a := w')]
      · rw [if_neg detects,checks]
        simp [verdict,off,detects,KillsFirst,Compares,Detects,TimesOut]
    · dsimp only
      by_cases alarm : val = sigAlrm
      · rw [if_pos alarm,bind_pure_ok_iff]
        simp [verdict,off,alarm,KillsFirst,Compares,Detects,TimesOut]
      · rw [if_neg alarm,checks]
        simp [verdict,off,alarm,KillsFirst,Compares,Detects,TimesOut]

structure Readable (disk : Disk) (orig test : ExecutionExitState) (stdout stderr origStdout origStderr : List Byte) :
    Prop where
  stdout : disk.descriptor test.stdoutFd = some stdout
  stderr : disk.descriptor test.stderrFd = some stderr
  origStdout : disk.file orig.stdoutFile = some origStdout
  origStderr : disk.file orig.stderrFile = some origStderr

theorem checkOutput_default (settings : Settings) (disk : Disk) (orig test : ExecutionExitState)
    (stdout stderr origStdout origStderr : List Byte) (noDiff : settings.diffCmd = none)
    (origSet : orig.isSet = true) (testSet : test.state.isSet = true)
    (readable : Readable disk orig test stdout stderr origStdout origStderr) :
    checkOutput settings disk orig test =
      .ok (decide (test.state = orig.state ∧ stdout = origStdout ∧ stderr = origStderr)) := by
  have diff (a b : List Byte) : Model.RunAndWait.defaultDiff a b = decide (a = b) := by
    rw [Bool.eq_iff_iff,Outputs.defaultDiff_iff,decide_eq_true_eq]
  simp only [checkOutput,origSet,testSet,noDiff,ExecutionExitState.same,openSafe,fdopen,readable.stdout,
    readable.stderr,readable.origStdout,readable.origStderr,bind,Except.bind,pure,Except.pure,diff]
  by_cases states : test.state = orig.state <;> by_cases out : stdout = origStdout <;> simp [states,out]

def ready (exState : ExecutionExitState) (settings : Settings) (state : ExitState) : Runner :=
  ⟨{exState with state},settings.noRedirect⟩

theorem waitChildAndGetStatus_exec (os : Os μ) (settings : Settings) (disk : Disk) (orig exState : ExecutionExitState)
    (fuel pid waitStatus : Nat) (state : ExitState) (w w₁ : World μ)
    (waited : exec (waitpidSkipThreadState os.toWaitCalls fuel) w = (.ok (pid,waitStatus),w₁))
    (decoded : getWaitPidExitState waitStatus = .ok state) :
    exec (waitChildAndGetStatus os settings disk orig fuel {exState}) w =
      exec (do
        let status ← classify os settings disk orig fuel (ready exState settings state)
        return (status,ready exState settings state)) w₁ := by
  have read : exec (liftM (getWaitPidExitState waitStatus) : Prog Halt (World μ) ExitState) w₁ = (.ok state,w₁) := by
    rw [exec_lift,decoded]
  have skip : (if settings.noRedirect then true else false) = settings.noRedirect := by cases settings.noRedirect <;> rfl
  rw [waitChildAndGetStatus,exec_bind_of _ _ _ _ _ waited]
  dsimp only
  rw [exec_bind_of _ _ _ _ _ read,skip]
  rfl

/-- An exit or a stop is classified exactly if the child that has to be killed for it can be killed
and waited for. -/
theorem classified_iff (os : Os μ) (settings : Settings) (disk : Disk)
    (orig exState : ExecutionExitState) (stdout stderr origStdout origStderr : List Byte)
    (fuel pid waitStatus : Nat) (state : ExitState) (w w₁ : World μ) (noDiff : settings.diffCmd = none)
    (origSet : orig.isSet = true) (readable : Readable disk orig exState stdout stderr origStdout origStderr)
    (waited : exec (waitpidSkipThreadState os.toWaitCalls fuel) w = (.ok (pid,waitStatus),w₁))
    (decoded : getWaitPidExitState waitStatus = .ok state)
    (ended : state.type = .exited ∨ state.type = .stopped) :
    (∃ status r last, exec (waitChildAndGetStatus os settings disk orig fuel {exState}) w = (.ok (status,r),last) ∧
      Classified settings state (state = orig.state ∧ stdout = origStdout ∧ stderr = origStderr) status) ↔
      (KillsFirst settings state → ∃ n < fuel, ∃ w₂, Kills os true n w₁ w₂) := by
  have testSet : state.isSet = true := by rcases ended with type | type <;> simp [ExitState.isSet,type]
  have compared := checkOutput_default settings disk orig {exState with state} stdout stderr origStdout origStderr
    noDiff origSet testSet ⟨readable.stdout,readable.stderr,readable.origStdout,readable.origStderr⟩
  have run := waitChildAndGetStatus_exec os settings disk orig exState fuel pid waitStatus state w w₁ waited decoded
  have ends (status : FtStatus) (last : World μ) := classify_iff os settings disk orig fuel
    (ready exState settings state) status w₁ last (.inr ended) rfl
  constructor
  · rintro ⟨status,r,last,returns,_⟩ first
    rw [run] at returns
    obtain ⟨found,w₂,judged,_⟩ := bind_ok _ _ _ _ _ returns
    obtain ⟨_,_,_,_,killed⟩ := (ends found w₂).mp judged
    have first : KillsFirst settings (ready exState settings state).exState.state := first
    rw [if_pos first] at killed
    obtain ⟨n,enough,kills⟩ := (killChild_iff os fuel w₁ w₂).mp killed
    exact ⟨n,enough,w₂,kills⟩
  · intro kills
    obtain ⟨last,killed⟩ : ∃ last, if KillsFirst settings state then exec (killChild os fuel) w₁ = (.ok (),last)
        else last = w₁ := by
      by_cases first : KillsFirst settings state
      · obtain ⟨n,enough,w₂,kills⟩ := kills first
        exact ⟨w₂,by rw [if_pos first]; exact (killChild_iff os fuel w₁ w₂).mpr ⟨n,enough,kills⟩⟩
      · exact ⟨w₁,by rw [if_neg first]⟩
    have listened : state.type = .signaled → settings.noRedirect = true := by
      intro signaled
      simp [signaled] at ended
    have judged := (ends _ last).mpr ⟨_,rfl,listened,fun _ => compared,killed⟩
    have classified := verdict_classified settings state
      (decide (state = orig.state ∧ stdout = origStdout ∧ stderr = origStderr)) ended
    rw [decide_eq_true_eq] at classified
    refine ⟨_,ready exState settings state,last,?_,classified⟩
    rw [run,exec_bind_of _ _ _ _ _ judged]
    rfl

def quiet : Disk := ⟨fun _ => some [],fun _ => some []⟩

def original : ExecutionExitState := ⟨⟨.exited,0⟩,3,4,"out","err"⟩

def returned : List Ev := [.move (.exit 7 exitSuccess),.report 7]

def alarmed : List Ev := [.move (.stop 7 Signal.alrm),.report 7,.call,.move (.die 7),.call]

theorem alarmed_classified : ∃ status r last,
    exec (waitChildAndGetStatus (os unrestricted noReplies) {} quiet original 1 {exState := original})
      (afterRun 7 0 alarmed) = (.ok (status,r),last) ∧
    Classified {} ⟨.stopped,sigAlrm⟩ (⟨.stopped,sigAlrm⟩ = original.state ∧ ([] : List Byte) = [] ∧ ([] : List Byte) = [])
      status := by
  have reported : (exec (waitpidSkipThreadState (os unrestricted noReplies).toWaitCalls 1) (afterRun 7 0 alarmed)).1 =
      .ok (7,stoppedStatus sigAlrm) := by decide +kernel
  generalize waited : exec (waitpidSkipThreadState (os unrestricted noReplies).toWaitCalls 1) (afterRun 7 0 alarmed) =
    result at reported
  refine (classified_iff _ {} quiet original original [] [] [] [] 1 7 (stoppedStatus sigAlrm) ⟨.stopped,sigAlrm⟩ _ result.2 rfl
    (by decide) ⟨rfl,rfl,rfl,rfl⟩ (waited.trans (Prod.ext reported rfl)) (by decide) (.inr rfl)).mpr fun _ => ?_
  refine ⟨0,by decide,_,_,Prod.ext ?_ rfl,.last (some true) (Prod.ext ?_ rfl) (by simp)⟩ <;>
    (rw [← waited]; decide +kernel)

/-- A process that is killed with another thread is never done with: its end is kept back for that thread. -/
theorem others_hang (allows : World Kernel → Ev → Bool) (replies : Replies) (pid other n : Nat) (w w' : World Timeline)
    (doomed : Cleanup.Doomed pid (now w)) (apart : other ≠ pid) (present : (now w).outside.task other ≠ none) :
    ¬ Drains (os allows replies) pid n w w' := by
  intro drains
  have ran := (cleanup_iff (os allows replies) pid (n + 1) w w').mpr ⟨n,Nat.lt_succ_self n,drains⟩
  have stable : Schedule.Stable (environment allows) fun w => w.outside.task other ≠ none := by
    intro w event _ present
    obtain ⟨move,rfl⟩ | same := KernelMoves.step_sameTasks w event
    · exact Cleanup.move_present w.outside move other present
    · rw [same.task]
      exact present
  have left := (Cleanup.cleanup_kept replies pid (n + 1) stable fun w status present _ => by
    rwa [WaitLoop.reap_other w.outside pid other apart]).ok present ran
  have gone := (Cleanup.cleanup_triple replies pid (n + 1)).ok doomed ran
  exact left ((Cleanup.gone_iff _).mp gone other)

/-- So a run that is stopped by its alarm with another thread gets no verdict. -/
theorem alarmed_hangs (allows : World Kernel → Ev → Bool) (replies : Replies) (settings : Settings) (disk : Disk)
    (orig exState : ExecutionExitState) (fuel pid waitStatus other : Nat) (success : Bool) (w w₁ w₂ : World Timeline)
    (redirected : settings.noRedirect = false)
    (waited : exec (waitpidSkipThreadState (os allows replies).toWaitCalls fuel) w = (.ok (pid,waitStatus),w₁))
    (decoded : getWaitPidExitState waitStatus = .ok ⟨.stopped,sigAlrm⟩)
    (killed : exec ((os allows replies).ptraceKill w₁.runner.childPID) w₁ = (.ok success,w₂))
    (doomed : Cleanup.Doomed w₁.runner.childPID (now w₂)) (apart : other ≠ w₁.runner.childPID)
    (present : (now w₂).outside.task other ≠ none) (result : FtStatus × Runner) (last : World Timeline) :
    exec (waitChildAndGetStatus (os allows replies) settings disk orig fuel {exState}) w ≠ (.ok result,last) := by
  intro returns
  rw [waitChildAndGetStatus_exec _ settings disk orig exState fuel pid waitStatus _ w w₁ waited decoded] at returns
  obtain ⟨status,w₃,judged,_⟩ := bind_ok _ _ _ _ _ returns
  obtain ⟨_,_,_,_,child⟩ := (classify_iff _ settings disk orig fuel (ready exState settings ⟨.stopped,sigAlrm⟩)
    status w₁ w₃ (.inr (.inr rfl)) rfl).mp judged
  have first : KillsFirst settings (ready exState settings ⟨.stopped,sigAlrm⟩).exState.state := .inr ⟨redirected,rfl,rfl⟩
  rw [if_pos first] at child
  obtain ⟨n,_,w₂',killing,drains⟩ := (killChild_iff _ fuel w₁ w₃).mp child
  obtain ⟨_,rfl⟩ := Prod.mk.inj (killed.symm.trans killing)
  exact others_hang allows replies _ other n w₂ w₃ doomed apart present drains

/-- Process 7 has a second thread, 8, when it is stopped by its alarm and killed. -/
def accompanied (future : List Ev) : List Ev :=
  [.move (.clone 7 8),.report 7,.call,.call,.move (.start 8),.report 8,.call] ++
    .move (.stop 7 Signal.alrm) :: .report 7 :: .call :: future

def cornered (future : List Ev) (fuel : Nat) : Except Halt Bool × World Timeline :=
  exec (do
    let _ ← waitpidSkipThreadState (os unrestricted noReplies).toWaitCalls (fuel + 3)
    (os unrestricted noReplies).ptraceKill 7) (afterRun 7 0 (accompanied future))

theorem cornered_doomed (future : List Ev) (fuel : Nat) : Cleanup.Doomed 7 (now (cornered future fuel).2) := by
  have leader : (now (cornered future fuel).2).outside.task 7 = some (.stopped (.signal Signal.alrm) true) := rfl
  have killed : (now (cornered future fuel).2).outside.killed = some (.signaled Signal.kill false) := rfl
  exact ⟨⟨rfl,.inr fun none => by cases leader.symm.trans none⟩,rfl,.inl fun none => by cases killed.symm.trans none⟩

theorem cornered_other (future : List Ev) (fuel : Nat) : (now (cornered future fuel).2).outside.task 8 ≠ none := by
  have running : (now (cornered future fuel).2).outside.task 8 = some .running := rfl
  simp [running]

theorem accompanied_hangs :
    (exec (waitpidSkipThreadState (os unrestricted noReplies).toWaitCalls 3) (afterRun 7 0 (accompanied []))).1 =
      .ok (7,stoppedStatus sigAlrm) ∧
    ∀ future fuel result last,
      exec (waitChildAndGetStatus (os unrestricted noReplies) {} quiet original fuel {exState := original})
        (afterRun 7 0 (accompanied future)) ≠ (.ok result,last) := by
  refine ⟨by decide +kernel,?_⟩
  -- three events are read before the alarm is reported
  rintro future (_ | _ | _ | fuel) result last
  · exact fun returns => nomatch congrArg Prod.fst returns
  · exact fun returns => nomatch congrArg Prod.fst returns
  · exact fun returns => nomatch congrArg Prod.fst returns
  have reported : (exec (waitpidSkipThreadState (os unrestricted noReplies).toWaitCalls (fuel + 3))
      (afterRun 7 0 (accompanied future))).1 = .ok (7,stoppedStatus sigAlrm) := rfl
  have own : (exec (waitpidSkipThreadState (os unrestricted noReplies).toWaitCalls (fuel + 3))
      (afterRun 7 0 (accompanied future))).2.runner.childPID = 7 := rfl
  have accepted : (cornered future fuel).1 = .ok true := rfl
  obtain ⟨w₁,waited⟩ := outcome_ok _ _ _ reported
  rw [waited] at own
  have killed : exec ((os unrestricted noReplies).ptraceKill 7) w₁ = cornered future fuel := by
    rw [cornered,exec_bind_of _ _ _ _ _ waited]
  dsimp only at own
  refine alarmed_hangs unrestricted noReplies {} quiet original original (fuel + 3) 7 (stoppedStatus sigAlrm) 8 true _ w₁
    (cornered future fuel).2 rfl waited (by decide) ?_ ?_ ?_ (cornered_other future fuel) result last
  · rw [own,killed]
    exact Prod.ext accepted rfl
  · rw [own]
    exact cornered_doomed future fuel
  · rw [own]
    decide

/-! The job process around the verdict. -/

def Reports (result : Except Halt FtStatus) : Prop := ∃ job, childJob result = some job ∧ Reported job

theorem reports_iff (result : Except Halt FtStatus) : Reports result ↔ ∃ status, result = .ok status ∧ status ≠ .none := by
  constructor
  · rintro ⟨job,ended,⟨code,exited⟩,outcome,wrote,real⟩
    cases result with
    | ok status =>
      obtain rfl := Option.some.inj ended
      obtain rfl : status = outcome := Option.some.inj wrote
      exact ⟨status,rfl,real⟩
    | error halt => cases halt <;> simp [childJob] at ended <;> (subst ended; simp at wrote)
  · rintro ⟨status,rfl,real⟩
    exact ⟨_,rfl,⟨_,rfl⟩,status,rfl,real⟩

theorem verdict_real (settings : Settings) (state : ExitState) (same : Bool) : verdict settings state same ≠ .none := by
  unfold verdict
  split_ifs <;> simp

theorem decoded_type (waitStatus : Nat) (state : ExitState) (decoded : getWaitPidExitState waitStatus = .ok state) :
    state.type = .signaled ∨ state.type = .exited ∨ state.type = .stopped := by
  unfold getWaitPidExitState at decoded
  split at decoded
  · obtain rfl := Except.ok.inj decoded
    exact .inr (.inl rfl)
  · split at decoded
    · obtain rfl := Except.ok.inj decoded
      exact .inl rfl
    · split at decoded
      · obtain rfl := Except.ok.inj decoded
        exact .inr (.inr rfl)
      · simp at decoded

/-- What is left of the child goes: it is killed where the verdict asks for it, and behind its last
PTRACE_KILL, accepted or not, the polls and waits come to an end. -/
def Ends (os : Os μ) (settings : Settings) (fuel : Nat) (state : ExitState) (w : World μ) : Prop :=
  ∃ last, (if KillsFirst settings state then ∃ n < fuel, Kills os true n w last else last = w) ∧
    ∃ success w', ∃ n < fuel, Kills os success n last w'

theorem lastKill_iff (os : Os μ) (fuel : Nat) (status result : FtStatus) (w w' : World μ) :
    exec (do
      let childPID := (← get).runner.childPID
      let _ ← os.ptraceKill childPID
      cleanupWaitpidState os childPID fuel
      return status) w = (.ok result,w') ↔ result = status ∧ ∃ success, ∃ n < fuel, Kills os success n w w' := by
  rw [exec_bind_of _ _ _ _ _ (exec_get w),bind_ok_iff]
  simp only [bind_pure_ok_iff,cleanup_iff]
  constructor
  · rintro ⟨success,w₁,killed,same,n,enough,drains⟩
    exact ⟨same,success,n,enough,w₁,killed,drains⟩
  · rintro ⟨same,success,n,enough,w₁,killed,drains⟩
    exact ⟨success,w₁,killed,same,n,enough,drains⟩

def FilesOpen (disk : Disk) (orig test : ExecutionExitState) : Prop :=
  ∃ origStdout, disk.file orig.stdoutFile = some origStdout ∧
    (∃ origStderr, disk.file orig.stderrFile = some origStderr) ∧
    (test.state = orig.state → ∃ stdout, disk.descriptor test.stdoutFd = some stdout ∧
      (stdout = origStdout → ∃ stderr, disk.descriptor test.stderrFd = some stderr))

theorem same_ok_iff (disk : Disk) (orig test : ExecutionExitState) :
    (∃ same, test.same disk orig = .ok same) ↔ FilesOpen disk orig test := by
  unfold FilesOpen ExecutionExitState.same openSafe fdopen
  cases disk.file orig.stdoutFile with
  | none => simp [bind,Except.bind]
  | some origStdout =>
    cases disk.file orig.stderrFile with
    | none => simp [bind,Except.bind]
    | some origStderr =>
      by_cases states : test.state = orig.state
      · cases disk.descriptor test.stdoutFd with
        | none => simp [states,bind,Except.bind]
        | some stdout =>
          by_cases out : stdout = origStdout
          · have alike := (Outputs.defaultDiff_iff origStdout origStdout).mpr rfl
            cases disk.descriptor test.stderrFd <;> simp [states,out,alike,bind,Except.bind,pure,Except.pure]
          · have differ : Model.RunAndWait.defaultDiff stdout origStdout = false := by
              rw [← Bool.not_eq_true,Outputs.defaultDiff_iff]
              exact out
            simp [states,out,differ,bind,Except.bind,pure,Except.pure]
      · simp [states,bind,Except.bind,pure,Except.pure]

def Comparable (settings : Settings) (disk : Disk) (orig test : ExecutionExitState) : Prop :=
  orig.isSet = true ∧ match settings.diffCmd with
    | some diffCmd => ∃ same, diffCmd orig test = .ok same
    | none => FilesOpen disk orig test

theorem comparable_iff (settings : Settings) (disk : Disk) (orig test : ExecutionExitState)
    (testSet : test.state.isSet = true) :
    (∃ same, checkOutput settings disk orig test = .ok same) ↔ Comparable settings disk orig test := by
  unfold checkOutput Comparable
  by_cases origSet : orig.isSet = true
  · simp only [origSet,testSet,Bool.not_true,Bool.false_eq_true,if_false,true_and]
    cases settings.diffCmd with
    | none => exact same_ok_iff disk orig test
    | some diffCmd => rfl
  · simp [origSet]

/-- Whichever end or stop was reported, the job writes an outcome exactly if it is not a termination
that has to be judged, what has to be compared can be compared, and the kernel gets rid of the child. -/
theorem job_reports_iff (os : Os μ) (settings : Settings) (disk : Disk) (orig exState : ExecutionExitState)
    (fuel pid waitStatus : Nat) (state : ExitState) (w w₁ : World μ)
    (waited : exec (waitpidSkipThreadState os.toWaitCalls fuel) w = (.ok (pid,waitStatus),w₁))
    (decoded : getWaitPidExitState waitStatus = .ok state) :
    Reports (exec (finishRun os settings disk orig fuel {exState}) w).1 ↔
      (state.type = .signaled → settings.noRedirect = true) ∧
      (Compares settings state → Comparable settings disk orig {exState with state}) ∧ Ends os settings fuel state w₁ := by
  have run := waitChildAndGetStatus_exec os settings disk orig exState fuel pid waitStatus state w w₁ waited decoded
  have types := decoded_type waitStatus state decoded
  have judged (status : FtStatus) (last : World μ) := classify_iff os settings disk orig fuel
    (ready exState settings state) status w₁ last types rfl
  have set : state.isSet = true := by
    rcases types with type | type | type <;> simp [ExitState.isSet,type]
  have comparable := comparable_iff settings disk orig {exState with state} set
  rw [reports_iff]
  constructor
  · rintro ⟨status,ran,_⟩
    obtain ⟨⟨found,r⟩,last,first,second⟩ := bind_ok _ _ _ _ _ (Prod.ext ran rfl)
    rw [run] at first
    obtain ⟨found',last',ran,returned⟩ := bind_ok _ _ _ _ _ first
    obtain ⟨_,rfl⟩ := pure_ok _ _ _ _ returned
    obtain ⟨_,success,left⟩ := (lastKill_iff os fuel _ _ _ _).mp second
    obtain ⟨same,_,skippable,compared,killed⟩ := (judged _ _).mp ran
    refine ⟨skippable,fun comparing => comparable.mp ⟨same,compared comparing⟩,last,?_,success,_,left⟩
    simpa only [ready,killChild_iff] using killed
  · rintro ⟨skippable,compares,last,killed,success,w',left⟩
    obtain ⟨same,compared⟩ : ∃ same, Compares settings state →
        checkOutput settings disk orig {exState with state} = .ok same := by
      by_cases comparing : Compares settings state
      · exact (comparable.mpr (compares comparing)).imp fun _ compared _ => compared
      · exact ⟨false,fun compares => absurd compares comparing⟩
    have ran := (judged (verdict settings state same) last).mpr
      ⟨same,rfl,skippable,compared,by simpa only [ready,killChild_iff] using killed⟩
    rw [exec_bind_of _ _ _ _ _ ran] at run
    refine ⟨_,?_,verdict_real settings state same⟩
    rw [finishRun,exec_bind_of _ _ _ _ _ run]
    exact congrArg Prod.fst ((lastKill_iff os fuel _ _ _ _).mpr ⟨rfl,success,left⟩)

theorem finishRun_verdict (os : Os μ) (settings : Settings) (disk : Disk) (orig exState : ExecutionExitState)
    (fuel : Nat) (status : FtStatus) (w : World μ)
    (ran : (exec (finishRun os settings disk orig fuel {exState}) w).1 = .ok status) :
    ∃ state same, status = verdict settings state same := by
  obtain ⟨⟨found,r⟩,last,first,second⟩ := bind_ok _ _ _ _ _ (Prod.ext ran rfl)
  obtain ⟨rfl,_⟩ := (lastKill_iff os fuel _ _ _ _).mp second
  obtain ⟨⟨pid,waitStatus⟩,w₁,waited,first'⟩ := bind_ok _ _ _ _ _ first
  obtain ⟨state,w₂,read,_⟩ := bind_ok _ _ _ _ _ first'
  obtain ⟨decoded,_⟩ := lift_ok _ _ _ _ read
  rw [waitChildAndGetStatus_exec os settings disk orig exState fuel pid waitStatus state w w₁ waited decoded] at first
  obtain ⟨_,_,judged,returned⟩ := bind_ok _ _ _ _ _ first
  obtain ⟨same,rfl⟩ := pure_ok _ _ _ _ returned
  cases same
  obtain ⟨same,reached,_⟩ := (classify_iff os settings disk orig fuel (ready exState settings state) _ w₁ _
    (decoded_type waitStatus state decoded) rfl).mp judged
  exact ⟨state,same,reached⟩

theorem returned_reports : Reports (exec (finishRun (os unrestricted noReplies) {} quiet original 1 {exState := original})
    (afterRun 7 0 (returned ++ [.call,.call]))).1 := by
  have reported : (exec (waitpidSkipThreadState (os unrestricted noReplies).toWaitCalls 1)
      (afterRun 7 0 (returned ++ [.call,.call]))).1 = .ok (7,0) := by decide +kernel
  have comparable : Comparable {} quiet original {original with state := ⟨.exited,0⟩} :=
    ⟨by decide,[],rfl,⟨[],rfl⟩,fun _ => ⟨[],rfl,fun _ => ⟨[],rfl⟩⟩⟩
  generalize waited : exec (waitpidSkipThreadState (os unrestricted noReplies).toWaitCalls 1)
      (afterRun 7 0 (returned ++ [.call,.call])) = result at reported
  have ends : Ends (os unrestricted noReplies) {} 1 ⟨.exited,0⟩ result.2 := by
    refine ⟨result.2,by simp,false,_,0,by decide,_,Prod.ext ?_ rfl,.last none (Prod.ext ?_ rfl) (by simp)⟩ <;>
      (rw [← waited]; decide +kernel)
  exact (job_reports_iff _ {} quiet original original 1 7 0 ⟨.exited,0⟩ _ result.2 (waited.trans (Prod.ext reported rfl))
    (by decide)).mpr ⟨by simp,fun _ => comparable,ends⟩

def killed : List Ev := [.move (.kill (.signaled Signal.kill false)),.move (.die 7),.report 7]

theorem killed_aborts :
    (exec (waitpidSkipThreadState (os unrestricted noReplies).toWaitCalls 1) (afterRun 7 0 killed)).1 =
      .ok (7,sigKill) ∧
    ¬ Reports (exec (finishRun (os unrestricted noReplies) {} quiet original 1 {exState := original})
      (afterRun 7 0 killed)).1 := by
  have aborts : (exec (finishRun (os unrestricted noReplies) {} quiet original 1 {exState := original})
      (afterRun 7 0 killed)).1 = .error (.assertion "Why terminated? Haven't we attached to it?") := by decide +kernel
  refine ⟨by decide +kernel,?_⟩
  rw [reports_iff,aborts]
  simp

/-- The process is gone: PTRACE_KILL fails, and nothing is left to wait for. -/
abbrev Over (os : Os μ) (n : Nat) (w : World μ) : Prop := ∃ w', Kills os false n w w'

/-- Behind a reported end nothing is left of a process; from a stop PTRACE_KILL gets a process of one
thread there. -/
structure Settles (os : Os μ) (n : Nat) (w : World μ) (type : ExitType) : Prop where
  ended : type ≠ .stopped → Over os n w
  stopped : type = .stopped → ∃ w', Kills os true n w w' ∧ Over os n w'

theorem Kills.answer {os : Os μ} {one two : Bool} {n m : Nat} {w w₁ w₂ : World μ} (first : Kills os one n w w₁)
    (second : Kills os two m w w₂) : one = two := by
  obtain ⟨_,killed,_⟩ := first
  obtain ⟨_,again,_⟩ := second
  rw [killed] at again
  simpa using congrArg Prod.fst again

theorem settled_ends_iff (os : Os μ) (settings : Settings) (n fuel : Nat) (state : ExitState) (w : World μ)
    (settles : Settles os n w state.type) (enough : n < fuel) :
    Ends os settings fuel state w ↔
      ¬ (KillsFirst settings state ∧ state.type ≠ .stopped) := by
  constructor
  · rintro ⟨last,killed,_⟩ ⟨first,ended⟩
    rw [if_pos first] at killed
    obtain ⟨m,_,kills⟩ := killed
    obtain ⟨w',gone⟩ := settles.ended ended
    exact absurd (kills.answer gone) (by simp)
  · intro fine
    by_cases first : KillsFirst settings state
    · obtain ⟨w',kills,w'',gone⟩ := settles.stopped (by_contra fun ended => fine ⟨first,ended⟩)
      exact ⟨w',by rw [if_pos first]; exact ⟨n,enough,kills⟩,false,w'',n,enough,gone⟩
    · refine ⟨w,by rw [if_neg first],?_⟩
      by_cases stopped : state.type = .stopped
      · obtain ⟨w',kills,_⟩ := settles.stopped stopped
        exact ⟨true,w',n,enough,kills⟩
      · obtain ⟨w',gone⟩ := settles.ended stopped
        exact ⟨false,w',n,enough,gone⟩

end Zofi.Verdict
