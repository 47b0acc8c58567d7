import Zofi.OneChild
import Zofi.OriginalState
import Zofi.Verdict

/-! What the counters of a whole campaign mean: from the calls of the original and the test
processes through their pipes to the Statistics of main(). -/
namespace Zofi.WholeCampaign
open Transitions Sys Model.Utils Model.WaitStatus Model.RegManip Model.Outcomes Model.Threads Model.Wait Model.Inject
open Model.TestRun Model.ExitState Model.InjectionRun Scheduler Campaign Verdict OriginalState

variable {μ : Type}

structure Process (μ : Type) where
  os : RunOs μ
  fuel : Nat
  exState : ExecutionExitState
  world : World μ

def Process.original (process : Process μ) : Except Halt ExecutionExitState :=
  outcome (OrigRunner.runAndWait process.os process.fuel process.exState) process.world

structure TestProcess (μ : Type) extends Process μ where
  cs : Capstone
  garbage : Model.AddrSpace.Scanned
  disk : Disk
  stats : Statistics

structure TestOptions where
  options : Model.RunAndWait.Options := {}
  settings : Settings := {}
  registers : Model.RegManip.Options := {}

namespace TestProcess
variable (process : TestProcess μ) (opts : TestOptions) (orig : ExecutionExitState)

def setup : Setup :=
  {options := opts.options,settings := opts.settings,registers := opts.registers,cs := process.cs,
    garbage := process.garbage,disk := process.disk,orig,runner := {exState := process.exState}}

def result : Except Halt FtStatus :=
  outcome (Prod.fst <$> runAndWait process.os (process.setup opts orig) process.fuel process.stats) process.world

def lastEvent (attempts : Nat) : Prog Halt (World μ) ExitState := do
  let _ ← attemptLoop process.os (process.setup opts orig) process.fuel attempts process.stats
  let (_,status) ← waitpidSkipThreadState process.os.toWaitCalls process.fuel
  getWaitPidExitState status

def lastState : Except Halt ExitState :=
  outcome (process.lastEvent opts orig (Model.RunAndWait.firstAttempts opts.options)) process.world

end TestProcess

/-- A run has ended like the original one and has written the same, or the user's command says so. -/
def agrees (settings : Settings) (disk : Disk) (orig test : ExecutionExitState) : Bool :=
  match settings.diffCmd with
  | some diffCmd => (diffCmd orig test).toOption.getD false
  | none => decide (test.state = orig.state ∧ disk.descriptor test.stdoutFd = disk.file orig.stdoutFile ∧
      disk.descriptor test.stderrFd = disk.file orig.stderrFile)

def TestProcess.verdict (process : TestProcess μ) (opts : TestOptions) (orig : ExecutionExitState) (state : ExitState) :
    FtStatus :=
  Verdict.verdict opts.settings state (agrees opts.settings process.disk orig {process.exState with state})

theorem same_eq (disk : Disk) (orig test : ExecutionExitState) (found : Bool) (ok : test.same disk orig = .ok found) :
    found = decide (test.state = orig.state ∧ disk.descriptor test.stdoutFd = disk.file orig.stdoutFile ∧
      disk.descriptor test.stderrFd = disk.file orig.stderrFile) := by
  have equal (a b : List Byte) : Model.RunAndWait.defaultDiff a b = decide (a = b) := by
    rw [Bool.eq_iff_iff,Outputs.defaultDiff_iff,decide_eq_true_eq]
  obtain ⟨origStdout,opened,ok⟩ := except_bind_ok _ _ _ ok
  obtain ⟨origStderr,opened',ok⟩ := except_bind_ok _ _ _ ok
  have file {name : String} {content : List Byte} (opened : openSafe disk name = .ok content) :
      disk.file name = some content := by
    unfold openSafe at opened
    split at opened
    next read => rw [read,Except.ok.inj opened]
    · cases opened
  have descriptor {fd : Int} {content : List Byte} (opened : fdopen disk fd = .ok content) :
      disk.descriptor fd = some content := by
    unfold fdopen at opened
    split at opened
    next read => rw [read,Except.ok.inj opened]
    · cases opened
  rw [file opened,file opened']
  split at ok
  next differs =>
    obtain rfl := Except.ok.inj ok
    simp [differs]
  next states =>
    rw [not_not] at states
    obtain ⟨stdout,read,ok⟩ := except_bind_ok _ _ _ ok
    rw [descriptor read]
    split at ok
    next differs =>
      obtain rfl := Except.ok.inj ok
      rw [equal] at differs
      simp_all
    next alike =>
      obtain ⟨stderr,read',ok⟩ := except_bind_ok _ _ _ ok
      obtain rfl := Except.ok.inj ok
      rw [equal] at alike
      rw [descriptor read',equal]
      simp_all

theorem checkOutput_agrees (settings : Settings) (disk : Disk) (orig test : ExecutionExitState) (found : Bool)
    (ok : checkOutput settings disk orig test = .ok found) :
    found = agrees settings disk orig test ∧ orig.isSet = true := by
  unfold checkOutput at ok
  split at ok
  · cases ok
  next set =>
    rw [Bool.not_eq_true',Bool.not_eq_false] at set
    refine ⟨?_,set⟩
    split at ok
    · cases ok
    · unfold agrees
      cases given : settings.diffCmd with
      | some diffCmd =>
        rw [given] at ok
        simp only [ok,Except.toOption,Option.getD_some]
      | none =>
        rw [given] at ok
        exact same_eq disk orig test found ok

theorem verdict_congr (settings : Settings) (state : ExitState) (one two : Bool)
    (same : Compares settings state → one = two) : verdict settings state one = verdict settings state two := by
  unfold verdict
  split_ifs <;> first | rfl | (rw [same (by simp_all)] at *; simp_all)

theorem lastKill_result (os : Os μ) (fuel : Nat) (status result : FtStatus) (w w' : World μ)
    (ran : exec (do
      let childPID := (← get).runner.childPID
      let _ ← os.ptraceKill childPID
      cleanupWaitpidState os childPID fuel
      return status) w = (.ok result,w')) : result = status :=
  ((lastKill_iff os fuel status result w w').mp ran).1

theorem TestProcess.runFrom_verdict (process : TestProcess μ) (opts : TestOptions) (orig : ExecutionExitState)
    (attempts : Nat) (status : FtStatus) (after : Statistics) (w w' : World μ)
    (ran : exec (runFrom process.os (process.setup opts orig) process.fuel attempts process.stats) w =
      (.ok (status,after),w')) :
    ∃ state, outcome (process.lastEvent opts orig attempts) w = .ok state ∧
      status = process.verdict opts orig state ∧
      (Compares opts.settings state → orig.isSet = true) := by
  obtain ⟨stats,w₁,tried,rest⟩ := bind_ok _ _ _ _ _ ran
  obtain ⟨status,w₂,finished,returned⟩ := bind_ok _ _ _ _ _ rest
  obtain ⟨same,_⟩ := pure_ok _ _ _ _ returned
  cases same
  obtain ⟨⟨found,r⟩,w₃,first,second⟩ := bind_ok _ _ _ _ _ finished
  obtain rfl := lastKill_result _ _ _ _ _ _ second
  obtain ⟨⟨pid,waitStatus⟩,w₄,waited,decoding⟩ := bind_ok _ _ _ _ _ first
  obtain ⟨state,w₅,read,_⟩ := bind_ok _ _ _ _ _ decoding
  obtain ⟨decoded,_⟩ := lift_ok _ _ _ _ read
  change exec (waitChildAndGetStatus process.os.toOs opts.settings process.disk orig process.fuel
    {exState := process.exState}) w₁ = _ at first
  rw [waitChildAndGetStatus_exec process.os.toOs opts.settings process.disk orig process.exState process.fuel pid
    waitStatus state w₁ w₄ waited decoded] at first
  obtain ⟨_,_,judged,returned⟩ := bind_ok _ _ _ _ _ first
  obtain ⟨same,_⟩ := pure_ok _ _ _ _ returned
  cases same
  obtain ⟨same,reached,_,compared,_⟩ := (classify_iff process.os.toOs opts.settings process.disk orig process.fuel
    (ready process.exState opts.settings state) _ w₄ _ (decoded_type waitStatus state decoded) rfl).mp judged
  refine ⟨state,?_,?_,fun comparing => (checkOutput_agrees _ _ _ _ _ (compared comparing)).2⟩
  · rw [outcome,lastEvent,exec_bind_of _ _ _ _ _ tried,exec_bind_of _ _ _ _ _ waited]
    change (exec (liftM (getWaitPidExitState waitStatus) : Prog Halt (World μ) ExitState) w₄).1 = _
    rw [exec_lift,decoded]
  · rw [reached]
    exact verdict_congr _ _ _ _ fun comparing => (checkOutput_agrees _ _ _ _ _ (compared comparing)).1

theorem TestProcess.result_verdict (process : TestProcess μ) (opts : TestOptions) (orig : ExecutionExitState)
    (status : FtStatus) (ok : process.result opts orig = .ok status) :
    ∃ state, process.lastState opts orig = .ok state ∧
      status = process.verdict opts orig state ∧
      (Compares opts.settings state → orig.isSet = true) := by
  unfold result at ok
  unfold lastState
  obtain ⟨w',ran⟩ := outcome_ok _ _ _ ok
  unfold runAndWait at ran
  rw [show (process.setup opts orig).options = opts.options from rfl] at ran
  generalize Model.RunAndWait.firstAttempts opts.options = attempts at ran ⊢
  rw [exec_map] at ran
  cases made : exec (runFrom process.os (process.setup opts orig) process.fuel attempts process.stats) process.world with
  | mk result w₁ =>
    rw [made] at ran
    cases result with
    | error e => cases ran
    | ok both =>
      cases ran
      exact process.runFrom_verdict opts orig attempts both.1 both.2 process.world _ made

theorem childJobEnd_wrote {R : Type} (result : Except Halt R) (job : JobEnd R) (sent : R)
    (ended : childJobEnd result = some job) (wrote : job.wrote = some sent) :
    result = .ok sent ∧ job.ending = .exited exitSuccess := by
  cases result with
  | ok found =>
    obtain rfl := Option.some.inj ended
    obtain rfl := Option.some.inj wrote
    exact ⟨rfl,rfl⟩
  | error halt =>
    cases halt <;> simp only [childJobEnd,Option.some.injEq,reduceCtorEq] at ended <;>
      (subst ended; cases wrote)

theorem TestProcess.job_verdict (process : TestProcess μ) (opts : TestOptions) (orig : ExecutionExitState)
    (job : JobEnd FtStatus) (ended : childJobEnd (process.result opts orig) = some job)
    (sent : job.wrote.isSome = true) :
    ∃ state, process.lastState opts orig = .ok state ∧
      job = ⟨some (process.verdict opts orig state),
        .exited exitSuccess⟩ ∧
      (Compares opts.settings state → orig.isSet = true) := by
  obtain ⟨written,ending⟩ := job
  obtain ⟨status,rfl⟩ := Option.isSome_iff_exists.mp sent
  obtain ⟨ok,rfl⟩ := childJobEnd_wrote _ _ status ended rfl
  obtain ⟨state,last,rfl,set⟩ := process.result_verdict opts orig status ok
  exact ⟨state,last,rfl,set⟩

/-- The original and the test runs of main(): the state that is handed to the test runs, and the
Statistics ahead of and behind them. -/
structure Campaigns (args : Arguments) (errno : Int) (fileExists : String → Bool) (origJobs : Nat → JobEnd Sent)
    (testJobs : Nat → JobEnd FtStatus) (handed : ExecutionExitState) (before stats : Statistics) : Prop where
  handing : ∃ origState, Collects args origJobs origState ∧ prepare args errno fileExists origState = .ok handed
  testing : ∃ events w, Run (Moves testJobScheduler testJobs args.jobs args.testRuns) {results := before} events w ∧
    Finished args.testRuns w ∧ stats = w.results

/-- What the numbers of a campaign mean: the test runs are compared with what the wait for the child of
original run 0 reported, or with what the user imports in its place, and each outcome is counted as often as
it is the verdict on a test run. -/
structure Means (args : Arguments) (errno : Int) (fileExists : String → Bool) (opts : TestOptions)
    (original : Process μ) (tests : Nat → TestProcess μ) (handed : ExecutionExitState) (before stats : Statistics)
    (state : Nat → ExitState) : Prop where
  original : args.setOrigExitState = none → handed.isSet = true → original.original = .ok handed
  imported : ∀ str, args.setOrigExitState = some str →
    ∃ origState, importArgument errno fileExists origState str = .ok handed
  reported : ∀ id < args.testRuns, (tests id).lastState opts handed = .ok (state id)
  compared : ∀ id < args.testRuns, Compares opts.settings (state id) → handed.isSet = true
  counters : ∀ outcome counter, counterOf outcome = some counter →
    stats.uLongMap counter = before.uLongMap counter + (List.range args.testRuns).countP fun id =>
      decide ((tests id).verdict opts handed (state id) = outcome)
  totalInjOK : stats.totalInjOK = before.totalInjOK + if opts.settings.noRedirect then 0 else args.testRuns
  grandTotal : stats.grandTotal = before.grandTotal + args.testRuns
  kept : ∀ s, isCounter s = false → stats.uLongMap s = before.uLongMap s

theorem count_rest (stats : Statistics) (outcome : FtStatus) (real : outcome ≠ .none) :
    (count stats (some outcome)).totalInjOK =
        stats.totalInjOK + (if outcome ≠ .injFailed ∧ outcome ≠ .skipped then 1 else 0) ∧
      ∀ s, isCounter s = false → (count stats (some outcome)).uLongMap s = stats.uLongMap s := by
  have others (counter s : StatType) (counts : isCounter counter = true) (value : Nat) (other : isCounter s = false) :
      Function.update stats.uLongMap counter value s = stats.uLongMap s :=
    Function.update_of_ne (fun same => by simp [same,counts] at other) _ _
  cases outcome with
  | none => exact absurd rfl real
  | masked => exact ⟨rfl,fun s => others .masked s rfl _⟩
  | exception => exact ⟨rfl,fun s => others .exception s rfl _⟩
  | infExec => exact ⟨rfl,fun s => others .infExec s rfl _⟩
  | corrupted => exact ⟨rfl,fun s => others .corrupted s rfl _⟩
  | detected => exact ⟨rfl,fun s => others .detected s rfl _⟩
  | injFailed => exact ⟨rfl,fun s => others .injFailed s rfl _⟩
  | skipped => exact ⟨rfl,fun s => others .skipped s rfl _⟩

theorem fold_rest (jobs : Nat → JobEnd FtStatus) (ids : List Nat) (stats : Statistics)
    (good : ∀ id ∈ ids, Reported (jobs id)) :
    (ids.foldl (fun stats job => count stats (jobs job).wrote) stats).totalInjOK = stats.totalInjOK + ids.countP (fun id =>
        decide ((jobs id).wrote ≠ some .injFailed ∧ (jobs id).wrote ≠ some .skipped)) ∧
      ∀ s, isCounter s = false →
        (ids.foldl (fun stats job => count stats (jobs job).wrote) stats).uLongMap s = stats.uLongMap s := by
  induction ids generalizing stats with
  | nil => exact ⟨rfl,fun _ _ => rfl⟩
  | cons id ids ih =>
    obtain ⟨⟨_,outcome,wrote,real⟩,others⟩ := List.forall_mem_cons.mp good
    obtain ⟨total,kept⟩ := count_rest stats outcome real
    obtain ⟨totals,keeps⟩ := ih (count stats (some outcome)) others
    rw [List.foldl_cons,wrote]
    refine ⟨?_,fun s other => (keeps s other).trans (kept s other)⟩
    rw [totals,total,List.countP_cons,wrote]
    simp only [ne_eq,Option.some.injEq,decide_eq_true_eq]
    split_ifs <;> omega

theorem verdict_ok_iff (process : TestProcess μ) (opts : TestOptions) (orig : ExecutionExitState) (state : ExitState) :
    process.verdict opts orig state ≠ .injFailed ∧ process.verdict opts orig state ≠ .skipped ↔
      opts.settings.noRedirect = false := by
  unfold TestProcess.verdict verdict
  split_ifs <;> simp_all

theorem handed_original (args : Arguments) (few : args.testRuns < 2^32) (errno : Int) (fileExists : String → Bool)
    (original : Process μ) (origJobs : Nat → JobEnd Sent) (origState handed : ExecutionExitState)
    (collects : Collects args origJobs origState) (prepared : prepare args errno fileExists origState = .ok handed)
    (ended : childJobEnd original.original = some (sends (origJobs 0))) (collected : args.setOrigExitState = none)
    (set : handed.isSet = true) : original.original = .ok handed := by
  obtain rfl : origState = handed := by
    unfold prepare at prepared
    rw [collected] at prepared
    obtain ⟨_,_,prepared⟩ := except_bind_ok _ _ _ prepared
    obtain ⟨same,kept,prepared⟩ := except_bind_ok _ _ _ prepared
    obtain ⟨_,_,prepared⟩ := except_bind_ok _ _ _ prepared
    obtain rfl : origState = same := Except.ok.inj kept
    exact Except.ok.inj prepared
  have sent := collects_sent args few origJobs origState collects
  split at sent
  · cases wrote : (origJobs 0).wrote with
    | none =>
      rw [wrote] at sent
      rw [sent] at set
      cases set
    | some found =>
      rw [wrote] at sent
      have both := childJobEnd_wrote original.original _ found.exState ended (by rw [sends,wrote]; rfl)
      rw [sent]
      exact both.1
  · rw [sent] at set
    cases set

/-- Whatever the order in which the jobs end: if each test process gets to send its outcome, every
counter of main() is the number of the test runs with that verdict. -/
theorem campaigns_mean (args : Arguments) (few : args.testRuns < 2^32) (one : 1 ≤ args.jobs) (errno : Int)
    (fileExists : String → Bool) (opts : TestOptions) (original : Process μ) (tests : Nat → TestProcess μ)
    (origJobs : Nat → JobEnd Sent) (testJobs : Nat → JobEnd FtStatus) (handed : ExecutionExitState)
    (before stats : Statistics) (campaigns : Campaigns args errno fileExists origJobs testJobs handed before stats)
    (origEnded : childJobEnd original.original = some (sends (origJobs 0)))
    (testEnded : ∀ id < args.testRuns, childJobEnd ((tests id).result opts handed) = some (testJobs id))
    (sent : ∀ id < args.testRuns, (testJobs id).wrote.isSome = true) :
    ∃ state, Means args errno fileExists opts original tests handed before stats state := by
  obtain ⟨⟨origState,collects,prepared⟩,⟨events,w,run,ended,rfl⟩⟩ := campaigns
  have : Nonempty ExitState := ⟨{}⟩
  have judged (id : Nat) (low : id < args.testRuns) :=
    (tests id).job_verdict opts handed (testJobs id) (testEnded id low) (sent id low)
  choose! state last wrote set using judged
  have good : ∀ id < args.testRuns, Reported (testJobs id) := by
    intro id low
    rw [wrote id low]
    exact reported_reports (fun _ => (tests id).verdict opts handed (state id)) id (verdict_real _ _ _)
  obtain ⟨_,_,finished⟩ := run_sound testJobScheduler testJobs args.jobs args.testRuns few one _
    (test_takes testJobs args.testRuns good) before events w run
  obtain ⟨closed,sum⟩ := finished ended
  have reported : ∀ id ∈ doneJobs events, Reported (testJobs id) := fun id member =>
    good id (List.mem_range.mp (closed.allReaped.mem_iff.mp member))
  obtain ⟨counts,grand⟩ := fold_counts testJobs (doneJobs events) before reported
  obtain ⟨total,kept⟩ := fold_rest testJobs (doneJobs events) before reported
  refine ⟨state,?_,?_,last,set,?_,?_,?_,?_⟩
  · exact handed_original args few errno fileExists original origJobs origState handed collects prepared origEnded
  · exact fun str given => ⟨origState,prepare_imports args errno fileExists origState handed str given prepared⟩
  · intro outcome counter has
    rw [sum,counts outcome counter has,wroteCount,closed.allReaped.countP_eq]
    refine congrArg _ (List.countP_congr fun id member => ?_)
    rw [wrote id (List.mem_range.mp member),decide_eq_true_eq,decide_eq_true_eq,Option.some_inj]
  · rw [sum,total,closed.allReaped.countP_eq]
    refine congrArg _ ?_
    have each : ∀ id ∈ List.range args.testRuns,
        decide ((testJobs id).wrote ≠ some .injFailed ∧ (testJobs id).wrote ≠ some .skipped) = !opts.settings.noRedirect := by
      intro id member
      have ok := verdict_ok_iff (tests id) opts handed (state id)
      rw [wrote id (List.mem_range.mp member),Bool.eq_iff_iff,decide_eq_true_eq,Bool.not_eq_true']
      simpa only [ne_eq,Option.some.injEq] using ok
    rw [List.countP_congr (fun id member => by rw [each id member])]
    cases opts.settings.noRedirect <;> simp
  · rw [sum,grand,closed.allReaped.length_eq,List.length_range]
  · rw [sum]
    exact kept

open Semantics.Ptrace Semantics.Forks KernelMoves OneChild TemporaryFiles

def returning : Process Timeline where
  os := runOs undisturbed noReplies twoPids
  fuel := 1
  exState := {originals 0 with state := {}}
  world := beforeRun [.call,.move (.stop 7 ⟨sigTrap,trap_known⟩),.report 7,.call,.call,.move (.exit 7 exitSuccess),.report 7]

/-- The first child ends before it can be injected into, the second one gets its fault and returns. -/
def retrying : TestProcess Timeline where
  os := runOs undisturbed flipping twoPids
  fuel := 2
  exState := forcedRax.runner.exState
  world := beforeRun twoChildren
  cs := forcedRax.cs
  garbage := forcedRax.garbage
  disk := forcedRax.disk
  stats := .zero

def forced : TestOptions := {registers := forcedRax.registers}

theorem ok_of_toOption {R : Type} (result : Except Halt R) (value : R) (reached : result.toOption = some value) :
    result = .ok value := by
  cases result with
  | error halt => cases reached
  | ok found => rw [Option.some.inj reached]

theorem returning_original : returning.original = .ok (originals 0) := ok_of_toOption _ _ (by decide +kernel)

theorem retrying_masked : retrying.result forced (originals 0) = .ok .masked := ok_of_toOption _ _ (by decide +kernel)

end Zofi.WholeCampaign
