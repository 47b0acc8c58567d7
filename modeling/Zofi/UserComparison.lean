import Zofi.Substitution
import Zofi.WholeCampaign

/-! The verdict where -diff-cmd is given: it is the exit of a shell on the command with the names of
the four files put in. -/
namespace Zofi.UserComparison
open Semantics.Ptrace Replacement Model.Utils Model.WaitStatus Model.Outcomes Model.TestRun Model.DiffCmd Verdict WholeCampaign Substitution

variable {μ : Type}

structure UserDiff where
  shells : Shells
  diffCmd : String
  diffShell : String := "/bin/bash"
  diffDisableRedirect : Bool := false

def UserDiff.compare (user : UserDiff) (fuel : Nat) : ExecutionExitState → ExecutionExitState → Except Halt Bool :=
  userDiff user.shells user.diffDisableRedirect fuel user.diffCmd user.diffShell

structure Accepts (user : UserDiff) (cmd : List Char) : Prop where
  quiet : user.diffDisableRedirect = false → user.shells.devNull = true
  executes : user.shells.executes user.diffShell = true
  succeeds : user.shells.ends user.diffShell cmd (!user.diffDisableRedirect) = .exited exitSuccess

theorem shellProcess_iff (user : UserDiff) (cmd : List Char) :
    shellProcess user.shells user.diffDisableRedirect cmd user.diffShell = .exited exitSuccess ↔ Accepts user cmd := by
  unfold shellProcess
  constructor
  · intro ended
    split_ifs at ended with redirect starts
    refine ⟨fun on => ?_,by simpa using starts,ended⟩
    simpa [on] using redirect
  · rintro ⟨quiet,executes,succeeds⟩
    rw [if_neg,if_neg,succeeds]
    · simp [executes]
    · cases on : user.diffDisableRedirect with
      | true => simp
      | false => simp [quiet on]

/-- However the shell's process ends, the comparison has a result. -/
theorem systemCustom_ok (user : UserDiff) (cmd : List Char) :
    ∃ same, systemCustom user.shells user.diffDisableRedirect cmd user.diffShell = .ok same ∧
      (same = true ↔ Accepts user cmd) := by
  rw [systemCustom,← shellProcess_iff]
  cases shellProcess user.shells user.diffDisableRedirect cmd user.diffShell with
  | exited code =>
    rw [exited_status]
    refine ⟨code.val == 0,rfl,?_⟩
    rw [beq_iff_eq,Ending.exited.injEq]
    exact ⟨fun zero => Fin.ext zero,fun same => congrArg Fin.val same⟩
  | signaled signal core =>
    rw [signaled_status]
    refine ⟨false,rfl,?_⟩
    simp

/-- The verdict is that of the shell: not the way the run ended, and not the files themselves. -/
structure JudgedBy (user : UserDiff) (cmd : List Char) (state : ExitState) (status : FtStatus) : Prop where
  masked : status = .masked ↔ Accepts user cmd
  corrupted : ¬ Accepts user cmd → state.type = .exited → status = .corrupted
  exception : ¬ Accepts user cmd → state.type ≠ .exited → status = .exception

def evaluated (user : UserDiff) (orig test : ExecutionExitState) : List Char :=
  substitute (macros orig test) user.diffCmd.toList

def given (opts : TestOptions) (user : UserDiff) (fuel : Nat) : TestOptions :=
  {opts with settings := {opts.settings with diffCmd := some (user.compare fuel)}}

theorem compare_ok (user : UserDiff) (orig test : ExecutionExitState)
    (plain : ∀ path ∈ [orig.stdoutFile,orig.stderrFile,test.stdoutFile,test.stderrFile], Plain path) :
    ∃ rounds, ∀ fuel, rounds < fuel → ∃ same, user.compare fuel orig test = .ok same ∧
      (same = true ↔ Accepts user (evaluated user orig test)) := by
  obtain ⟨rounds,replaced⟩ := replaceInTurn_marked (macros orig test) (macros_marked orig test plain) user.diffCmd.toList
  refine ⟨rounds,fun fuel enough => ?_⟩
  obtain ⟨same,ended,accepts⟩ := systemCustom_ok user (evaluated user orig test)
  refine ⟨same,?_,accepts⟩
  rw [UserDiff.compare,userDiff,evalDiffCmd_inTurn,replaced fuel enough]
  exact ended

theorem judgedBy (user : UserDiff) (opts : TestOptions) (fuel : Nat) (process : TestProcess μ) (orig : ExecutionExitState)
    (cmd : List Char) (state : ExitState) (same : Bool)
    (ended : user.compare fuel orig {process.exState with state} = .ok same) (accepts : same = true ↔ Accepts user cmd)
    (compares : Compares opts.settings state) :
    JudgedBy user cmd state (process.verdict (given opts user fuel) orig state) := by
  have judged : process.verdict (given opts user fuel) orig state = verdict opts.settings state same := by
    rw [TestProcess.verdict,agrees]
    simp only [given,ended,Except.toOption,Option.getD_some]
    rfl
  obtain ⟨redirected,detects,alarm⟩ := compares
  rw [judged,verdict,if_neg (by simp [redirected]),if_neg detects,if_neg alarm]
  refine ⟨?_,fun refused exited => ?_,fun refused stopped => ?_⟩
  · rw [← accepts]
    split_ifs <;> simp_all
  · rw [if_neg fun agreed => refused (accepts.mp agreed),if_pos exited]
  · rw [if_neg fun agreed => refused (accepts.mp agreed),if_neg stopped]

/-- A comparison always has a result, and a run that is compared is judged by the shell alone. -/
theorem userDiff_judges (user : UserDiff) (opts : TestOptions) (process : TestProcess μ) (orig : ExecutionExitState)
    (set : orig.isSet = true) (plain : ∀ path ∈ [orig.stdoutFile,orig.stderrFile,process.exState.stdoutFile,
      process.exState.stderrFile], Plain path) :
    ∃ rounds, ∀ fuel, rounds < fuel →
      (∀ state : ExitState, state.isSet = true → ∃ same,
        checkOutput (given opts user fuel).settings process.disk orig {process.exState with state} = .ok same) ∧
      ∀ status, process.result (given opts user fuel) orig = .ok status →
        ∃ state, process.lastState (given opts user fuel) orig = .ok state ∧
          (Compares opts.settings state → JudgedBy user (evaluated user orig process.exState) state status) := by
  obtain ⟨rounds,compared⟩ := compare_ok user orig process.exState plain
  refine ⟨rounds,fun fuel enough => ?_⟩
  obtain ⟨same,ended,accepts⟩ := compared fuel enough
  have ended (state : ExitState) : user.compare fuel orig {process.exState with state} = .ok same := ended
  refine ⟨fun state reported => ⟨same,?_⟩,fun status ok => ?_⟩
  · simp [checkOutput,given,set,reported,ended state]
  · obtain ⟨state,last,rfl,_⟩ := process.result_verdict (given opts user fuel) orig status ok
    exact ⟨state,last,judgedBy user opts fuel process orig _ state same (ended state) accepts⟩

/-- A shell that exits with 0 whenever the command does not name the original files. -/
def grepping : UserDiff where
  shells := ⟨true,fun _ => true,fun _ cmd _ => .exited (if "/tmp/zofi.Stdout.0".toList <:+: cmd then exitFailure else exitSuccess)⟩
  diffCmd := "grep -q Result %TEST_STDOUT"

def compared : TestProcess Timeline := {retrying with exState := testFiles}

def comparedWith : ExecutionExitState := {origFiles with state := ⟨.exited,0⟩,stdoutFd := 3,stderrFd := 4}

theorem grepping_judges : ∃ rounds, ∀ fuel, rounds < fuel →
    (∀ state : ExitState, state.isSet = true → ∃ same, checkOutput (given forced grepping fuel).settings compared.disk
      comparedWith {testFiles with state} = .ok same) ∧
    ∀ status, compared.result (given forced grepping fuel) comparedWith = .ok status →
      ∃ state, compared.lastState (given forced grepping fuel) comparedWith = .ok state ∧
        (Compares forced.settings state → JudgedBy grepping "grep -q Result /tmp/zofi.Stdout.1.g7h8i9".toList state status) := by
  have command : evaluated grepping comparedWith testFiles = "grep -q Result /tmp/zofi.Stdout.1.g7h8i9".toList := by
    decide +kernel
  rw [← command]
  exact userDiff_judges grepping forced compared comparedWith (by decide) files_plain

end Zofi.UserComparison
