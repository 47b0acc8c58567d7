import Zofi.Model.ExitState
import Zofi.TemporaryFiles

/-! The original state of the test runs when -set-orig-exit-state describes it: the text names
no descriptors, so that they have to come from an original run. -/
namespace Zofi.OriginalState
open Transitions Sys Model.Utils Model.WaitStatus Model.Threads Model.TestRun Model.ExitState Scheduler Campaign TemporaryFiles

def timingRunUnset : Halt := .userDie "The exit state of the timing run is not set."

/-- The state is set, and no comparison stops because it is not, unless the user's command itself
does. -/
def Usable (handed : ExecutionExitState) : Prop :=
  handed.isSet = true ∧ ∀ settings disk test,
    (∀ diffCmd ∈ settings.diffCmd, diffCmd handed test ≠ .error timingRunUnset) →
      checkOutput settings disk handed test ≠ .error timingRunUnset

def dies (halt : Halt) : Prop := ∃ message, halt = .die message

theorem openSafe_fails (disk : Disk) (file : String) : FailsAs dies (openSafe disk file) := by
  unfold openSafe
  split
  · exact FailsAs.ok _ _
  · exact FailsAs.error ⟨_,rfl⟩

theorem fdopen_fails (disk : Disk) (fd : Int) : FailsAs dies (fdopen disk fd) := by
  unfold fdopen
  split
  · exact FailsAs.ok _ _
  · exact FailsAs.error ⟨_,rfl⟩

theorem same_fails (disk : Disk) (s other : ExecutionExitState) : FailsAs dies (s.same disk other) := by
  apply FailsAs.bind (openSafe_fails disk _)
  intro stdout
  apply FailsAs.bind (openSafe_fails disk _)
  intro stderr
  split
  · exact FailsAs.ok _ _
  · apply FailsAs.bind (fdopen_fails disk _)
    intro own
    split
    · exact FailsAs.ok _ _
    · exact FailsAs.bind (fdopen_fails disk _) fun _ => FailsAs.ok _ _

theorem usable_iff (handed : ExecutionExitState) : Usable handed ↔ handed.isSet = true := by
  refine ⟨And.left,fun set => ⟨set,?_⟩⟩
  intro settings disk test other stopped
  unfold checkOutput at stopped
  simp only [set,Bool.not_true,Bool.false_eq_true,if_false] at stopped
  split at stopped
  · simp [timingRunUnset] at stopped
  · split at stopped
    · next diffCmd given => exact other diffCmd given stopped
    · obtain ⟨message,died⟩ := same_fails disk test handed _ stopped
      cases died

def Collects (args : Arguments) (jobs : Nat → JobEnd Sent) (origState : ExecutionExitState) : Prop :=
  if args.options.runsOriginal then
    ∃ events w, Run (Moves (origJobScheduler ExecutionExitState) (fun id => sends (jobs id)) args.jobs
        args.options.numOrigJobs) {results := {}} events w ∧ Finished args.options.numOrigJobs w ∧ origState = w.results
  else origState = {}

theorem orig_absorbs {R : Type} (jobs : Nat → JobEnd R) (total : Nat) (few : total < 2^32) :
    Absorbs (origJobScheduler R) jobs total fun job origExitState =>
      if job = 0 then (jobs 0).wrote.getD origExitState else origExitState := by
  intro job low garbage read data origExitState taken delivered same finished
  simp only [origJobScheduler,same,toInt_zero job (low.trans few),delivered] at finished
  by_cases first : job = 0
  · subst job
    exact (Except.ok.inj finished).symm
  · rw [if_neg first] at finished
    exact (Except.ok.inj finished).symm.trans (if_neg first).symm

theorem fold_latest {R : Type} (record : Option R) (ids : List Nat) (unset : R) :
    ids.foldl (fun state job => if job = 0 then record.getD state else state) unset =
      if 0 ∈ ids then record.getD unset else unset := by
  induction ids generalizing unset with
  | nil => rfl
  | cons id ids ih =>
    rw [List.foldl_cons,ih]
    by_cases first : id = 0
    · cases record <;> simp [first]
    · simp [first,Ne.symm first]

theorem collects_sent (args : Arguments) (few : args.testRuns < 2^32) (jobs : Nat → JobEnd Sent)
    (origState : ExecutionExitState) (collects : Collects args jobs origState) :
    origState = if args.options.runsOriginal = true ∧ 0 < min args.jobs args.testRuns then
      ((jobs 0).wrote.map Sent.exState).getD {} else {} := by
  unfold Collects at collects
  split at collects
  next runs =>
    obtain ⟨events,w,run,ended,rfl⟩ := collects
    have few : args.options.numOrigJobs < 2^32 := (Nat.min_le_right _ _).trans_lt few
    obtain ⟨active,orderly⟩ := run_orderly (origJobScheduler ExecutionExitState) (fun id => sends (jobs id)) args.jobs
      args.options.numOrigJobs few {} events w run
    obtain ⟨_,_,_,allReaped⟩ := orderly.finished ended
    rw [run_results (origJobScheduler ExecutionExitState) _ args.jobs args.options.numOrigJobs few _
      (orig_absorbs _ _ few) {} events w run,fold_latest]
    simp only [allReaped.mem_iff,List.mem_range,runs,true_and]
    rfl
  next skipped =>
    rw [if_neg fun both => skipped both.1]
    exact collects

theorem importState_set (typeStr : String) (v : Int) (state : ExitState) (imported : importState typeStr v = .ok state) :
    state.isSet = true := by
  unfold importState at imported
  split at imported
  · cases imported
    rfl
  · split at imported
    · cases imported
      rfl
    · cases imported

theorem importArgument_fields (errno : Int) (fileExists : String → Bool) (exState imported : ExecutionExitState)
    (str : String) (ok : importArgument errno fileExists exState str = .ok imported) :
    imported.stdoutFd = exState.stdoutFd ∧ imported.stderrFd = exState.stderrFd ∧ imported.state.isSet = true := by
  obtain ⟨scanned,_,ok⟩ := except_bind_ok _ _ _ ok
  split at ok
  · cases ok
  · obtain ⟨_,_,ok⟩ := except_bind_ok _ _ _ ok
    obtain ⟨_,_,ok⟩ := except_bind_ok _ _ _ ok
    obtain ⟨state,typed,ok⟩ := except_bind_ok _ _ _ ok
    cases ok
    exact ⟨rfl,rfl,importState_set _ _ _ typed⟩

theorem prepare_imports (args : Arguments) (errno : Int) (fileExists : String → Bool)
    (origState handed : ExecutionExitState) (str : String) (given : args.setOrigExitState = some str)
    (prepared : prepare args errno fileExists origState = .ok handed) :
    importArgument errno fileExists origState str = .ok handed := by
  unfold prepare at prepared
  rw [given] at prepared
  obtain ⟨_,_,prepared⟩ := except_bind_ok _ _ _ prepared
  obtain ⟨imported,ran,prepared⟩ := except_bind_ok _ _ _ prepared
  obtain ⟨_,_,prepared⟩ := except_bind_ok _ _ _ prepared
  cases prepared
  exact ran

/-- Where the text is given, the state is usable exactly if an original run is made for its time,
and its first job sends what it has collected. -/
theorem handed_usable_iff (args : Arguments) (few : args.testRuns < 2^32) (errno : Int) (fileExists : String → Bool)
    (jobs : Nat → JobEnd Sent) (origState handed : ExecutionExitState) (str : String)
    (given : args.setOrigExitState = some str) (collects : Collects args jobs origState)
    (prepared : prepare args errno fileExists origState = .ok handed) :
    Usable handed ↔ args.disableTimingRun = false ∧ args.binExecTime = false ∧ 0 < min args.jobs args.testRuns ∧
      (jobs 0).wrote.isSome = true := by
  obtain ⟨stdoutFd,stderrFd,state⟩ :=
    importArgument_fields _ _ _ _ _ (prepare_imports args errno fileExists origState handed str given prepared)
  have runs : args.options.runsOriginal = true ↔ args.disableTimingRun = false ∧ args.binExecTime = false := by
    simp [Arguments.options,Model.Main.Options.runsOriginal,given]
  have own : handed.isSet = (origState.stdoutFd != -1 && origState.stderrFd != -1) := by
    rw [ExecutionExitState.isSet,stdoutFd,stderrFd,state,Bool.and_true]
  rw [usable_iff,own,collects_sent args few jobs origState collects]
  by_cases made : args.options.runsOriginal = true ∧ 0 < min args.jobs args.testRuns
  · rw [if_pos made]
    obtain ⟨original,some_⟩ := made
    obtain ⟨enabled,untimed⟩ := runs.mp original
    cases (jobs 0).wrote with
    | none => simp
    | some sent =>
      have opened (fd : Nat) : (fd : Int) ≠ -1 := by omega
      simp [Sent.exState,enabled,untimed,opened,Nat.lt_min.mp some_]
  · rw [if_neg made]
    constructor
    · intro unset
      cases unset
    · rintro ⟨enabled,untimed,some_,_⟩
      exact absurd ⟨runs.mpr ⟨enabled,untimed⟩,some_⟩ made

def described : Arguments := {binExecTime := true,setOrigExitState := some "/dev/null,/dev/null,exited:66"}

theorem described_unusable : ∃ handed, Collects described (fun _ => ⟨none,.exited exitFailure⟩) {} ∧
    prepare described 0 (fun _ => true) {} = .ok handed ∧ ¬ Usable handed ∧
    checkOutput {} ⟨fun _ => some [],fun _ => some []⟩ handed {handed with stdoutFd := 3,stderrFd := 4} =
      .error timingRunUnset := by
  refine ⟨{state := ⟨.exited,66⟩,stdoutFile := "/dev/null",stderrFile := "/dev/null"},rfl,by decide,?_,by decide⟩
  rw [usable_iff]
  decide

/-- The same without -bin-exec-time: the original is run for its time. -/
def timed : Arguments := {described with binExecTime := false}

def sentBy (id : Nat) : JobEnd Sent :=
  ⟨some ⟨⟨.exited,0⟩,3,4,(originals id).stdoutFile,(originals id).stderrFile⟩,.exited exitSuccess⟩

theorem timed_collects : Collects timed sentBy (originals 0) := by
  have runs : timed.options.runsOriginal = true := rfl
  rw [Collects,if_pos runs]
  exact one_collected

theorem timed_usable : ∃ handed, prepare timed 0 (fun _ => true) (originals 0) = .ok handed ∧ Usable handed := by
  have prepared : prepare timed 0 (fun _ => true) (originals 0) =
      .ok ⟨⟨.exited,66⟩,3,4,"/dev/null","/dev/null"⟩ := by decide
  exact ⟨_,prepared,(handed_usable_iff timed (by decide) 0 (fun _ => true) sentBy (originals 0) _ _ rfl timed_collects
    prepared).mpr ⟨rfl,rfl,by decide,rfl⟩⟩

end Zofi.OriginalState
